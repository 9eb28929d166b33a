/-
  PipeX.Core.SecureFiles.Posix

  `openPosix` of `src/core/secureFiles.ts`: the descriptors it acquires, the private
  directory it creates, and `cleanup`.

  Native calls are numbered in the order in which they are made.  Whether a call
  succeeds, and what it returns then, is left to `Natives`.  Descriptors have the
  numbers of a `Ledger`.
-/
import PipeX.Core.Errors
import PipeX.Lib.Ledger
import PipeX.Lib.Triple

namespace PipeX

/-! ## Native calls -/

/-- A resolved file name, by `path.parse(..).root`, the `components` of its
    `path.dirname` and its `path.basename`. -/
structure FilePath where
  root : String
  parents : List String
  base : String
deriving DecidableEq, Repr

inductive OpenFlag where
  | rdonly
  | wronly
  | creat
  | excl
  | nonblock
  | directory
  | nofollow
deriving DecidableEq, Repr

inductive NativeCall where
  | openSync (path : String) (flags : List OpenFlag)
  | openat (parent : Nat) (name : String) (flags : List OpenFlag) (mode : Nat)
  | fcntl (fd command argument : Nat)
  | fstatSync (fd : Nat)
  | mkdirat (parent : Nat) (name : String) (mode : Nat)
  | renameat (oldParent : Option Nat) (oldName : String) (newParent : Option Nat) (newName : String)
  | unlinkat (parent : Nat) (name : String) (removeDirectory : Bool)
  | closeSync (fd : Nat)
deriving DecidableEq, Repr

structure Stat where
  isFile : Bool
  dev : Nat
  ino : Nat
  mode : Nat
  uid : Nat
deriving DecidableEq, Repr

/-- What the system answers. -/
structure Natives where
  /-- whether a call succeeds, by its number -/
  succeeds : Nat → NativeCall → Bool
  /-- what `fstatSync` returns -/
  stat : Nat → Stat
  /-- what a function of `node:fs` throws -/
  error : Nat → JsError
  /-- `process.geteuid?.()` -/
  geteuid : Option Nat

/-- The variables of `openPosix` that `cleanup` reads. -/
structure PosixLocals where
  outputParent : Option Nat
  temporaryParent : Option Nat
  committed : Bool
  temporaryCreated : Bool
deriving DecidableEq, Repr

/-- What there is of a session in the file system. -/
structure PosixEntries where
  /-- the private temporary directory -/
  directory : Bool
  /-- its entry `data` -/
  data : Bool
  /-- how often the output name has been bound to the file of the session -/
  renames : Nat
deriving DecidableEq, Repr

structure Posix where
  /-- how many native calls have been made -/
  calls : Nat
  ledger : Ledger
  descriptors : List Nat
  locals : PosixLocals
  entries : PosixEntries
deriving DecidableEq, Repr

abbrev PosixCall : Type → Type := EStateM JsError Posix

namespace Posix

/-- Nothing has been acquired. -/
def start : Posix where
  calls := 0
  ledger := Ledger.new
  descriptors := []
  locals := ⟨none, none, false, false⟩
  entries := ⟨false, false, 0⟩

/-- `fail(operation)`. -/
def fail {α : Type} (operation : String) : PosixCall α :=
  throw (plainError s!"[PipeX] Secure file {operation} failed")

/-- `if (c) fail(operation);` -/
def failIf (c : Prop) [Decidable c] (operation : String) : PosixCall Unit :=
  if c then fail operation else return ()

section Calls

variable (natives : Natives)

/-- A call through `koffi`, whose result is looked at by the caller. -/
def native (call : NativeCall) : PosixCall Bool :=
  modifyGet fun s => (natives.succeeds s.calls call, { s with calls := s.calls + 1 })

/-- A call of `node:fs`, which throws where it fails. -/
def fsCall (call : NativeCall) : PosixCall Nat := do
  let number ← modifyGet fun s => (s.calls, s)
  if ← native natives call then
    return number
  else
    throw (natives.error number)

/-- A new descriptor. -/
def acquire : PosixCall Nat :=
  modifyGet fun s => (s.ledger.acquired, { s with ledger := s.ledger.acquire })

def openSync (path : String) (flags : List OpenFlag) : PosixCall Nat := do
  let _ ← fsCall natives (.openSync path flags)
  acquire

/-- What a successful `openat` does. -/
def opened (flags : List OpenFlag) (entries : PosixEntries) : PosixEntries :=
  if .creat ∈ flags then { entries with data := true } else entries

/-- `none` for a negative result. -/
def openat (parent : Nat) (name : String) (flags : List OpenFlag) (mode : Nat) :
    PosixCall (Option Nat) := do
  if ← native natives (.openat parent name flags mode) then
    modify fun s => { s with entries := opened flags s.entries }
    return some (← acquire)
  else
    return none

def fstatSync (fd : Nat) : PosixCall Stat := do
  let number ← fsCall natives (.fstatSync fd)
  return natives.stat number

def mkdirat (parent : Nat) (name : String) (mode : Nat) : PosixCall Bool := do
  if ← native natives (.mkdirat parent name mode) then
    modify fun s => { s with entries.directory := true }
    return true
  else
    return false

/-- A descriptor is gone even where `closeSync` throws. -/
def closeSync (fd : Nat) : PosixCall Unit := do
  modify fun s => { s with ledger := s.ledger.release [fd] }
  let _ ← fsCall natives (.closeSync fd)

/-- What a successful `unlinkat` does: a directory is removed only if it is empty. -/
def unlinked (removeDirectory : Bool) (entries : PosixEntries) : PosixEntries :=
  if removeDirectory then { entries with directory := entries.directory && entries.data }
  else { entries with data := false }

/-- The result of `unlinkat` is not looked at. -/
def unlinkat (parent : Nat) (name : String) (removeDirectory : Bool) (s : Posix) : Posix :=
  if natives.succeeds s.calls (.unlinkat parent name removeDirectory) then
    { s with calls := s.calls + 1, entries := unlinked removeDirectory s.entries }
  else
    { s with calls := s.calls + 1 }

/-! ## openPosix -/

/-- Every error of `closeSync` is caught. -/
def closeAll (s : Posix) : Posix :=
  { s with
    calls := s.calls + s.descriptors.length
    ledger := s.ledger.release s.descriptors.reverse
    descriptors := [] }

/-- The first statement of `cleanup`. -/
def unlinkData (s : Posix) : Posix :=
  match s.locals.temporaryParent with
  | some fd => if s.locals.committed then s else unlinkat natives fd "data" false s
  | none => s

/-- The second statement of `cleanup`. -/
def unlinkTemporary (temporary : String) (s : Posix) : Posix :=
  match s.locals.outputParent with
  | some fd => if s.locals.temporaryCreated then unlinkat natives fd temporary true s else s
  | none => s

def cleanup (temporary : String) (s : Posix) : Posix :=
  closeAll (unlinkTemporary natives temporary (unlinkData natives s))

/-- `descriptors.push(fd)`. -/
def push (fd : Nat) : PosixCall Unit :=
  modify fun s => { s with descriptors := s.descriptors ++ [fd] }

def openChild (parent : Nat) (name : String) (flags : List OpenFlag) (mode : Nat) :
    PosixCall Nat := do
  match ← openat natives parent name (flags ++ [.nofollow]) mode with
  | none => fail "relative open"
  | some fd => do
    -- pushed first: `closeAll` knows of it when `F_SETFD` fails
    push fd
    if ← native natives (.fcntl fd 2 1) then
      return fd
    else
      fail "descriptor inheritance protection"

def openParent (filename : FilePath) : PosixCall Nat := do
  let fd ← openSync natives filename.root [.rdonly, .directory]
  push fd
  filename.parents.foldlM (fun fd part => openChild natives fd part [.rdonly, .directory] 0) fd

/-- The file behind the output name, if there is one, is not the input. -/
def checkExisting (outputParent : Nat) (base : String) (sourceStat : Stat) : PosixCall Unit := do
  match ← openat natives outputParent base [.rdonly, .nofollow, .nonblock] 0 with
  -- whatever the reason, a file that cannot be opened is taken for absent
  | none => return ()
  | some existing =>
    try
      let targetStat ← fstatSync natives existing
      if sourceStat.dev = targetStat.dev ∧ sourceStat.ino = targetStat.ino then
        throw (plainError "[PipeX] Input and output must be different files")
    finally
      closeSync natives existing

/-- The descriptors of the streams. -/
structure Handles where
  inputFD : Nat
  outputFD : Nat
deriving DecidableEq, Repr

/-- The `try` block of `openPosix`. -/
def acquisition (input output : FilePath) (temporary : String) : PosixCall Handles := do
  let inputParent ← openParent natives input
  -- `outputParent` is assigned only when the whole walk has succeeded
  let outputParent ← openParent natives output
  modify fun s => { s with locals.outputParent := some outputParent }
  let inputFD ← openChild natives inputParent input.base [.rdonly, .nonblock] 0
  let sourceStat ← fstatSync natives inputFD
  failIf (sourceStat.isFile = false) "input type validation"
  checkExisting natives outputParent output.base sourceStat
  -- the entry `data` is created in a directory that no other user can write
  let created ← mkdirat natives outputParent temporary 0o700
  failIf (created = false) "temporary directory creation"
  modify fun s => { s with locals.temporaryCreated := true }
  let temporaryParent ← openChild natives outputParent temporary [.rdonly, .directory] 0
  modify fun s => { s with locals.temporaryParent := some temporaryParent }
  let tempStat ← fstatSync natives temporaryParent
  failIf (tempStat.mode &&& 0o077 ≠ 0 ∨ some tempStat.uid ≠ natives.geteuid)
    "temporary directory permissions"
  let outputFD ← openChild natives temporaryParent "data" [.wronly, .creat, .excl] 0o600
  return ⟨inputFD, outputFD⟩

def openPosix (input output : FilePath) (temporary : String) : PosixCall Handles :=
  tryCatch (acquisition natives input output temporary) fun error => do
    modify (cleanup natives temporary)
    throw error

/-! ## commit -/

def renameat (oldParent : Option Nat) (oldName : String) (newParent : Option Nat)
    (newName : String) : PosixCall Bool := do
  if ← native natives (.renameat oldParent oldName newParent newName) then
    modify fun s =>
      { s with entries := { s.entries with data := false, renames := s.entries.renames + 1 } }
    return true
  else
    return false

/-- `commit()`, with what `disposed` is by then. -/
def commit (output : FilePath) (disposed : Bool) : PosixCall Unit := do
  let { outputParent, temporaryParent, committed, .. } ← modifyGet fun s => (s.locals, s)
  failIf (disposed || committed) "commit state"
  let renamed ← renameat natives temporaryParent "data" outputParent output.base
  failIf (renamed = false) "atomic relative rename"
  modify fun s => { s with locals := { s.locals with committed := true } }

end Calls
end Posix
end PipeX
