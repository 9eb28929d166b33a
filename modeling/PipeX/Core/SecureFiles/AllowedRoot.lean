/-
  PipeX.Core.SecureFiles.AllowedRoot

  `assertWithinRoot`, `assertExists` and `resolveOutputPath` of `src/core/core.ts`, and
  `openAtomicFileSession` of `src/core/secureFiles.ts` on POSIX.

  Lookups in the file system are numbered in the order in which they are made, so
  that anything may happen to the files between two of them.

  * `assertWithinRoot_ok` — the text of the way decides on the names.
  * `openAtomicFileSession_within` — a session is opened on two files in the allowed root.
-/
import PipeX.Core.SecureFiles.AllOrNothing
import PipeX.Lib.AbsolutePath

namespace PipeX

/-- What `node:path` and `node:fs` answer. -/
structure PathHost where
  /-- `process.cwd()` -/
  cwd : AbsolutePath
  existsSync : Nat → AbsolutePath → Bool
  /-- `realpathSync.native` -/
  realpath : Nat → AbsolutePath → Except JsError AbsolutePath

/-- The state counts the lookups. -/
abbrev PathCall : Type → Type := EStateM JsError Nat

section

variable (host : PathHost)

def existsSync (path : AbsolutePath) : PathCall Bool :=
  modifyGet fun number => (host.existsSync number path, number + 1)

def realpathSync (path : AbsolutePath) : PathCall AbsolutePath := do
  let number ← modifyGet fun number => (number, number + 1)
  match host.realpath number path with
  | .ok canonical => return canonical
  | .error e => throw e

/-- `assertWithinRoot(target, allowedRoot)`. -/
def assertWithinRoot (target allowedRoot : AbsolutePath) : PathCall Unit :=
  let relative := allowedRoot.relative target
  if relative = ['.', '.'] ∨ ['.', '.'] ++ ['/'] <+: relative ∨ ['/'] <+: relative then
    throw (plainError "[PipeX] Path is outside the allowed root")
  else return ()

/-- `path.resolve(allowedRoot ?? process.cwd())`; a working directory is resolved. -/
def resolveRoot (allowedRoot : Option (List Char)) : AbsolutePath :=
  (allowedRoot.map host.cwd.resolve).getD host.cwd

def assertExists (inputPath : List Char) (allowedRoot : Option (List Char)) :
    PathCall AbsolutePath := do
  let abs := host.cwd.resolve inputPath
  if !(← existsSync host abs) then
    throw (plainError s!"[PipeX] File not found: {String.ofList abs.text}")
  let root ← realpathSync host (resolveRoot host allowedRoot)
  let canonical ← realpathSync host abs
  assertWithinRoot canonical root
  return canonical

def resolveOutputPath (outputPath : List Char) (allowedRoot : Option (List Char)) :
    PathCall AbsolutePath := do
  let root ← realpathSync host (resolveRoot host allowedRoot)
  let absolute := host.cwd.resolve outputPath
  let parent ← realpathSync host absolute.dirname
  assertWithinRoot parent root
  let candidate := absolute.moved parent
  if ← existsSync host candidate then
    let existing ← realpathSync host candidate
    assertWithinRoot existing root
  return candidate

/-- `openAtomicFileSession`, up to the choice of the platform. -/
def resolvePaths (inputPath outputPath : List Char) (allowedRoot : Option (List Char)) :
    PathCall (AbsolutePath × AbsolutePath) := do
  let root ← realpathSync host (resolveRoot host allowedRoot)
  let input ← assertExists host inputPath (some root.text)
  let output ← resolveOutputPath host outputPath (some root.text)
  if input.text = output.text then
    throw (plainError "[PipeX] Input and output must be different files")
  return (input, output)

/-- A path as `path.parse` and `components` take it apart. -/
def filePath (path : AbsolutePath) : FilePath :=
  ⟨"/", path.dirname.names.map String.ofList, String.ofList path.basename⟩

def openAtomicFileSession (natives : Natives) (temporary : String)
    (inputPath outputPath : List Char) (allowedRoot : Option (List Char)) :
    Except JsError (Posix.Handles × Posix) :=
  match (resolvePaths host inputPath outputPath allowedRoot).run 0 with
  | .error e _ => .error e
  | .ok (input, output) _ =>
    match (Posix.openPosix natives (filePath input) (filePath output) temporary).run
      Posix.start with
    | .ok handles posix => .ok (handles, posix)
    | .error e _ => .error e

end

/-! ## The test on the way -/

/-- The three comparisons look at the first name of the way. -/
theorem escapes_iff (relative : List Char) :
    (relative = ['.', '.'] ∨ ['.', '.'] ++ ['/'] <+: relative ∨ ['/'] <+: relative) ↔
      AbsolutePath.firstName relative = ['.', '.'] ∨
        (AbsolutePath.firstName relative = [] ∧ relative ≠ []) := by
  have hup := AbsolutePath.firstName_eq_iff relative (show '/' ∉ ['.', '.'] by decide)
  have habsolute := AbsolutePath.firstName_eq_iff relative (List.not_mem_nil (a := '/'))
  rw [hup, habsolute, List.nil_append]
  constructor
  · rintro (h | h | h)
    · exact .inl (.inl h)
    · exact .inl (.inr h)
    · refine .inr ⟨.inr h, ?_⟩
      rintro rfl
      exact absurd (List.prefix_nil.mp h) (List.cons_ne_nil _ _)
  · rintro ((h | h) | ⟨h | h, hne⟩)
    · exact .inl h
    · exact .inr (.inl h)
    · exact absurd h hne
    · exact .inr (.inr h)

/-- A way down is no escape. -/
theorem not_escapes {names : List (List Char)} (h : ∀ name ∈ names, IsName name) :
    ¬ (AbsolutePath.firstName (['/'].intercalate names) = ['.', '.'] ∨
      (AbsolutePath.firstName (['/'].intercalate names) = [] ∧ ['/'].intercalate names ≠ [])) := by
  cases names with
  | nil =>
    rintro (h | ⟨-, h⟩)
    · cases h
    · exact h rfl
  | cons name names =>
    have hname := h name (List.mem_cons_self ..)
    rw [AbsolutePath.firstName_intercalate names hname.unseparated]
    rintro (h | ⟨h, -⟩)
    · exact hname.ne_up h
    · exact hname.nonempty h

/-- A path is let through if and only if its names go on where those of the root end;
    names that only begin with two dots are no way up. -/
theorem assertWithinRoot_ok {target allowedRoot : AbsolutePath} {number number' : Nat} :
    (assertWithinRoot target allowedRoot).run number = .ok () number' ↔
      allowedRoot.names <+: target.names ∧ number' = number := by
  unfold assertWithinRoot
  simp only [escapes_iff]
  unfold AbsolutePath.relative
  rcases AbsolutePath.relativeNames_cases allowedRoot.names target.names with
    ⟨hbelow, hnames⟩ | ⟨houtside, rest, hnames⟩
  · rw [hnames]
    have hdown : ∀ name ∈ target.names.drop allowedRoot.names.length, IsName name :=
      fun name hname => target.valid name (List.mem_of_mem_drop hname)
    rw [if_neg (not_escapes hdown)]
    constructor
    · intro h
      cases h
      exact ⟨hbelow, rfl⟩
    · rintro ⟨-, rfl⟩
      rfl
  · rw [hnames, AbsolutePath.firstName_intercalate rest (by decide), if_pos (.inl rfl)]
    constructor
    · intro h
      cases h
    · exact fun h => absurd h.1 houtside

/-! ## Sessions -/

section

variable {host : PathHost}

theorem realpathSync_ok {path canonical : AbsolutePath} {number number' : Nat}
    (h : (realpathSync host path).run number = .ok canonical number') :
    host.realpath number path = .ok canonical ∧ number' = number + 1 := by
  obtain ⟨first, middle, hnumber, hanswer⟩ := run_bind_ok h
  cases hnumber
  cases hpath : host.realpath number path with
  | ok answer =>
    rw [hpath] at hanswer
    cases hanswer
    exact ⟨rfl, rfl⟩
  | error e =>
    rw [hpath] at hanswer
    cases hanswer

/-- An input file exists, and its canonical path is in the root. -/
theorem assertExists_ok {inputPath : List Char} {allowedRoot : Option (List Char)}
    {input : AbsolutePath} {number number' : Nat}
    (h : (assertExists host inputPath allowedRoot).run number = .ok input number') :
    host.existsSync number (host.cwd.resolve inputPath) = true ∧
      (∃ root, host.realpath (number + 1) (resolveRoot host allowedRoot) = .ok root ∧
        root.names <+: input.names) ∧
      host.realpath (number + 2) (host.cwd.resolve inputPath) = .ok input ∧
      number' = number + 3 := by
  obtain ⟨found, afterTest, htest, h⟩ := run_bind_ok h
  cases htest
  cases hfound : host.existsSync number (host.cwd.resolve inputPath) with
  | false =>
    rw [hfound] at h
    cases h
  | true =>
    rw [hfound] at h
    obtain ⟨root, afterRoot, hrootRun, h⟩ := run_bind_ok h
    obtain ⟨canonical, afterPath, hpathRun, h⟩ := run_bind_ok h
    obtain ⟨_, _, hwithinRun, h⟩ := run_bind_ok h
    cases h
    obtain ⟨hroot, rfl⟩ := realpathSync_ok hrootRun
    obtain ⟨hpath, rfl⟩ := realpathSync_ok hpathRun
    obtain ⟨hwithin, rfl⟩ := assertWithinRoot_ok.mp hwithinRun
    exact ⟨rfl, ⟨root, hroot, hwithin⟩, hpath, rfl⟩

/-- The directory of an output file is in the root, and so is what the file already is. -/
theorem resolveOutputPath_ok {outputPath : List Char} {allowedRoot : Option (List Char)}
    {output : AbsolutePath} {number number' : Nat}
    (h : (resolveOutputPath host outputPath allowedRoot).run number = .ok output number') :
    ∃ root parent, host.realpath number (resolveRoot host allowedRoot) = .ok root ∧
      host.realpath (number + 1) (host.cwd.resolve outputPath).dirname = .ok parent ∧
      root.names <+: parent.names ∧
      output = (host.cwd.resolve outputPath).moved parent ∧
      (host.existsSync (number + 2) output = true →
        ∃ existing, host.realpath (number + 3) output = .ok existing ∧
          root.names <+: existing.names) := by
  obtain ⟨root, afterRoot, hrootRun, h⟩ := run_bind_ok h
  obtain ⟨parent, afterParent, hparentRun, h⟩ := run_bind_ok h
  obtain ⟨_, _, hwithinRun, h⟩ := run_bind_ok h
  obtain ⟨hroot, rfl⟩ := realpathSync_ok hrootRun
  obtain ⟨hparent, rfl⟩ := realpathSync_ok hparentRun
  obtain ⟨hwithin, rfl⟩ := assertWithinRoot_ok.mp hwithinRun
  obtain ⟨found, afterTest, htest, h⟩ := run_bind_ok h
  cases htest
  refine ⟨root, parent, hroot, hparent, hwithin, ?_⟩
  cases hfound : host.existsSync (number + 2) ((host.cwd.resolve outputPath).moved parent) with
  | false =>
    rw [hfound] at h
    cases h
    refine ⟨rfl, fun hexists => ?_⟩
    rw [hfound] at hexists
    cases hexists
  | true =>
    rw [hfound] at h
    obtain ⟨existing, afterExisting, hexistingRun, h⟩ := run_bind_ok h
    obtain ⟨_, _, hinside, h⟩ := run_bind_ok h
    cases h
    obtain ⟨hexisting, rfl⟩ := realpathSync_ok hexistingRun
    exact ⟨rfl, fun _ => ⟨existing, hexisting, (assertWithinRoot_ok.mp hinside).1⟩⟩

/-- The canonical root is passed on as a text and read again. -/
theorem resolveRoot_text (root : AbsolutePath) : resolveRoot host (some root.text) = root :=
  AbsolutePath.resolve_text host.cwd root

/-- While the root stays where it is, the file that a session reads and the directory
    that it writes into are in the root, whatever else is moved or replaced by a link
    between two lookups. -/
theorem openAtomicFileSession_within {natives : Natives} {temporary : String}
    {inputPath outputPath : List Char} {allowedRoot : Option (List Char)}
    {handles : Posix.Handles} {posix : Posix}
    (hstays : ∀ root, host.realpath 0 (resolveRoot host allowedRoot) = .ok root →
      ∀ number, host.realpath number root = .ok root)
    (hopen : openAtomicFileSession host natives temporary inputPath outputPath allowedRoot =
      .ok (handles, posix)) :
    ∃ root input parent, host.realpath 0 (resolveRoot host allowedRoot) = .ok root ∧
      host.realpath 3 (host.cwd.resolve inputPath) = .ok input ∧
      host.realpath 5 (host.cwd.resolve outputPath).dirname = .ok parent ∧
      root.names <+: input.names ∧ root.names <+: parent.names ∧
      let output := (host.cwd.resolve outputPath).moved parent
      input ≠ output ∧
      (host.existsSync 6 output = true →
        ∃ existing, host.realpath 7 output = .ok existing ∧ root.names <+: existing.names) ∧
      (Posix.openPosix natives (filePath input) (filePath output) temporary).run Posix.start =
        .ok handles posix := by
  unfold openAtomicFileSession at hopen
  split at hopen
  · cases hopen
  rename_i input output number hpaths
  split at hopen
  · rename_i hposix
    cases hopen
    obtain ⟨root, _, hrootRun, hpaths⟩ := run_bind_ok hpaths
    obtain ⟨input', _, hinputRun, hpaths⟩ := run_bind_ok hpaths
    obtain ⟨output', _, houtputRun, hpaths⟩ := run_bind_ok hpaths
    obtain ⟨hroot, rfl⟩ := realpathSync_ok hrootRun
    have hstays := hstays root hroot
    obtain ⟨-, ⟨inputRoot, hinputRoot, hinside⟩, hinput, rfl⟩ := assertExists_ok hinputRun
    obtain ⟨outputRoot, parent, houtputRoot, hparent, hdirectory, rfl, hexisting⟩ :=
      resolveOutputPath_ok houtputRun
    -- both functions find the root that they are given
    rw [resolveRoot_text, hstays] at hinputRoot houtputRoot
    cases hinputRoot
    cases houtputRoot
    split at hpaths
    · cases hpaths
    · rename_i hdifferent
      cases hpaths
      refine ⟨root, input, parent, hroot, hinput, hparent, hinside, hdirectory, ?_, hexisting,
        hposix⟩
      rintro rfl
      exact hdifferent rfl
  · cases hopen

end

/-- The directory `/data`. -/
def dataDirectory : AbsolutePath :=
  ⟨[['d', 'a', 't', 'a']], by
    intro name hname
    rw [List.mem_singleton.mp hname]
    exact ⟨by decide, by decide, by decide, by decide⟩⟩

/-- A file system without links that holds one file. -/
def plainHost : PathHost where
  cwd := dataDirectory
  existsSync _ path := path.names = [['d', 'a', 't', 'a'], ['i', 'n']]
  realpath _ path := .ok path

/-- A session from `in` to `../data/out`, with the working directory for a root. -/
theorem openAtomicFileSession_within_data :
    ∃ handles posix, openAtomicFileSession plainHost AtomicFileSession.obligingNatives ".pipex-0"
        ['i', 'n'] ['.', '.', '/', 'd', 'a', 't', 'a', '/', 'o', 'u', 't'] none =
        .ok (handles, posix) ∧
      dataDirectory.names <+: (dataDirectory.resolve ['i', 'n']).names ∧
      dataDirectory.names <+: (dataDirectory.resolve
        ['.', '.', '/', 'd', 'a', 't', 'a', '/', 'o', 'u', 't']).dirname.names := by
  have hopens : (openAtomicFileSession plainHost AtomicFileSession.obligingNatives ".pipex-0"
      ['i', 'n'] ['.', '.', '/', 'd', 'a', 't', 'a', '/', 'o', 'u', 't'] none).isOk = true := by
    decide +kernel
  cases hopen : openAtomicFileSession plainHost AtomicFileSession.obligingNatives ".pipex-0"
      ['i', 'n'] ['.', '.', '/', 'd', 'a', 't', 'a', '/', 'o', 'u', 't'] none with
  | error e =>
    rw [hopen] at hopens
    cases hopens
  | ok session =>
    obtain ⟨root, input, parent, hroot, hinput, hparent, hinside, hdirectory, -⟩ :=
      openAtomicFileSession_within (fun _ _ _ => rfl) hopen
    cases hroot
    cases hinput
    cases hparent
    exact ⟨session.1, session.2, rfl, hinside, hdirectory⟩

end PipeX
