/-
  PipeX.Core.SecureFiles.AllOrNothing

  A file session is all or nothing: behind `dispose`, and where `openPosix` throws,
  every descriptor has been closed once and nothing is left of the temporary
  directory; only `commit` binds the output name; and the file it binds holds what
  has been written.
-/
import PipeX.Core.SecureFiles.Acquisition
import PipeX.Core.SecureFiles.Guarded

namespace PipeX.AtomicFileSession

open Transition Posix

variable {s : AtomicFileSession} {natives : Natives} {output : FilePath} {temporary : String}

/-! ## What the file holds -/

/-- What a write has still to write. -/
def remaining : Option Writing → Bytes
  | some ⟨chunk, offset, _, .returned _ (.ok count)⟩ => chunk.drop (offset + count)
  | some ⟨chunk, offset, _, _⟩ => chunk.drop offset
  | none => []

/-- The file and what is still to be written are the chunks. -/
structure Accounted (s : AtomicFileSession) : Prop where
  content : (∀ outcome ∈ s.callbacks, outcome = .ok ()) →
    s.content ++ remaining s.writing = s.chunks.flatten
  count : s.callbacks.length + s.writing.toList.length = s.chunks.length
  finished : ∀ chunk offset work, s.writing = some ⟨chunk, offset, work, .finished (.ok ())⟩ →
    chunk.drop offset = []

/-- Every write has completed. -/
def WritesCompleted (s : AtomicFileSession) : Prop :=
  s.callbacks = s.chunks.map fun _ => .ok ()

theorem accounted_new (handles : Handles) (posix : Posix) : Accounted (new handles posix) :=
  ⟨fun _ => rfl, rfl, nofun⟩

theorem Accounted.content_eq (h : Accounted s) (hcompleted : s.WritesCompleted) :
    s.content = s.chunks.flatten := by
  have hok : ∀ outcome ∈ s.callbacks, outcome = .ok () := by
    intro outcome hmem
    rw [hcompleted] at hmem
    obtain ⟨chunk, -, rfl⟩ := List.mem_map.mp hmem
    rfl
  -- as many callbacks as chunks: no write is under way
  have hidle : s.writing = none := by
    have hcount := h.count
    rw [hcompleted, List.length_map] at hcount
    cases hwriting : s.writing with
    | none => rfl
    | some writing =>
      rw [hwriting, Option.toList_some, List.length_singleton] at hcount
      omega
  have hcontent := h.content hok
  rw [hidle, remaining, List.append_nil] at hcontent
  exact hcontent

theorem finish_accounted {chunk : Bytes} {offset work : Nat} {outcome : Except JsError Unit}
    (hcontent : (∀ outcome ∈ s.callbacks, outcome = .ok ()) →
      s.content ++ chunk.drop offset = s.chunks.flatten)
    (hcount : s.callbacks.length + 1 = s.chunks.length)
    (hfinished : outcome = .ok () → chunk.drop offset = []) :
    Accounted (finish chunk offset work outcome s) := by
  refine ⟨hcontent, hcount, ?_⟩
  intro chunk' offset' work' hwriting
  cases hwriting
  exact hfinished rfl

theorem writeLoop_accounted {chunk : Bytes} {offset work : Nat}
    (hcontent : (∀ outcome ∈ s.callbacks, outcome = .ok ()) →
      s.content ++ chunk.drop offset = s.chunks.flatten)
    (hcount : s.callbacks.length + 1 = s.chunks.length) :
    Accounted (writeLoop chunk offset work s) := by
  unfold writeLoop
  split
  · split
    · exact finish_accounted hcontent hcount nofun
    · exact ⟨hcontent, hcount, nofun⟩
  · rename_i hover
    exact finish_accounted hcontent hcount fun _ => List.drop_eq_nil_of_le (Nat.le_of_not_lt hover)

theorem Accounted.write (h : Accounted s) (chunk : Bytes) (hidle : s.writing = none) :
    Accounted (s.write chunk) := by
  have hcontent := h.content
  have hcount := h.count
  rw [hidle] at hcontent hcount
  apply writeLoop_accounted
  · intro hok
    have hbefore := hcontent hok
    rw [remaining, List.append_nil] at hbefore
    show s.content ++ chunk.drop 0 = (s.chunks ++ [chunk]).flatten
    rw [hbefore, List.drop_zero, List.flatten_concat]
  · show s.callbacks.length + 1 = (s.chunks ++ [chunk]).length
    rw [List.length_append, List.length_singleton]
    exact congrArg (· + 1) hcount

/-- A native write moves a piece of what remains into the file. -/
theorem Accounted.writeReturned (h : Accounted s) {count : Option Nat} {chunk : Bytes}
    {offset work task : Nat} (hwriting : s.writing = some ⟨chunk, offset, work, .running task⟩) :
    Accounted (s.writeReturned count) := by
  have hcontent := h.content
  have hcount := h.count
  rw [hwriting] at hcontent hcount
  unfold AtomicFileSession.writeReturned
  rw [hwriting]
  refine ⟨?_, hcount, nofun⟩
  intro hok
  rw [← hcontent hok]
  cases count with
  | none => exact congrArg (· ++ chunk.drop offset) (List.append_nil _)
  | some count =>
    -- short or not, the count splits what remained
    show s.content ++ (chunk.drop offset).take count ++ chunk.drop (offset + count) =
      s.content ++ chunk.drop offset
    rw [List.append_assoc, ← List.drop_drop, List.take_append_drop]

theorem Accounted.writeSettled (h : Accounted s) {chunk : Bytes} {offset work task : Nat}
    {result : Except JsError Nat}
    (hwriting : s.writing = some ⟨chunk, offset, work, .returned task result⟩) :
    Accounted s.writeSettled := by
  have hcontent := h.content
  have hcount := h.count
  rw [hwriting] at hcontent hcount
  unfold AtomicFileSession.writeSettled
  rw [hwriting]
  match result with
  | .ok 0 => exact finish_accounted hcontent hcount nofun
  | .ok (count + 1) => exact writeLoop_accounted hcontent hcount
  | .error e => exact finish_accounted hcontent hcount nofun

theorem Accounted.callback (h : Accounted s) {chunk : Bytes} {offset work : Nat}
    {outcome : Except JsError Unit}
    (hwriting : s.writing = some ⟨chunk, offset, work, .finished outcome⟩) :
    Accounted s.callback := by
  have hcontent := h.content
  have hcount := h.count
  rw [hwriting] at hcontent hcount
  unfold AtomicFileSession.callback
  rw [hwriting]
  refine ⟨?_, ?_, nofun⟩
  · intro hok
    have hall := List.forall_mem_append.mp hok
    -- a callback without an error comes from a loop that has run out
    have hdone : chunk.drop offset = [] := by
      apply h.finished chunk offset work
      rw [hwriting, hall.2 outcome (List.mem_singleton.mpr rfl)]
    rw [← hcontent hall.1, remaining, remaining, hdone]
    exact nofun
  · show (s.callbacks ++ [outcome]).length + 0 = s.chunks.length
    rw [List.length_append]
    exact hcount

theorem accounted_step {action : Action} (h : Accounted s) (henabled : enabled s action) :
    Accounted (step natives output temporary s action) := by
  cases action with
  | read =>
    show Accounted s.read
    unfold AtomicFileSession.read
    split
    · exact h
    · exact ⟨h.content, h.count, h.finished⟩
  | readReturned data =>
    show Accounted (s.readReturned data)
    unfold AtomicFileSession.readReturned
    split
    · exact ⟨h.content, h.count, h.finished⟩
    · exact h
  -- the read side does not touch what was handed over to be written
  | readSettled =>
    show Accounted s.readSettled
    unfold AtomicFileSession.readSettled
    split
    · simp only
      split
      · split
        · exact ⟨h.content, h.count, h.finished⟩
        · exact ⟨h.content, h.count, h.finished⟩
      · exact ⟨h.content, h.count, h.finished⟩
    · exact h
  | write chunk => exact h.write chunk henabled.2
  | writeReturned count =>
    -- the write side, by its own lemmas
    obtain ⟨chunk, offset, work, task, hwriting, -⟩ := henabled
    exact h.writeReturned hwriting
  | writeSettled =>
    obtain ⟨chunk, offset, work, task, result, hwriting⟩ := henabled
    exact h.writeSettled hwriting
  | callback =>
    obtain ⟨chunk, offset, work, outcome, hwriting⟩ := henabled
    exact h.callback hwriting
  | commit =>
    show Accounted (s.commit natives output)
    rw [commit_eq]
    exact ⟨h.content, h.count, h.finished⟩
  | dispose =>
    show Accounted s.dispose
    unfold AtomicFileSession.dispose
    split
    · exact h
    · exact ⟨h.content, h.count, h.finished⟩
  | _ => exact ⟨h.content, h.count, h.finished⟩

/-! ## What there is in the file system -/

/-- The stage of a session that has not been disposed of. -/
def openStage (handles : Handles) (outputParent temporaryParent : Nat) (committed : Bool) : Stage :=
  ⟨[], [handles.outputFD, handles.inputFD],
    ⟨some outputParent, some temporaryParent, committed, true⟩, ⟨true, !committed, committed.toNat⟩⟩

/-- Everything is there, or nothing is left. -/
structure Held (handles : Handles) (s : AtomicFileSession) : Prop where
  held : s.resolved = false →
    ∃ outputParent temporaryParent committed,
      At (openStage handles outputParent temporaryParent committed) s.posix
  released : s.resolved = true → s.posix.Released
  renames : s.posix.entries.renames = s.posix.locals.committed.toNat

theorem held_new {handles : Handles} {posix : Posix} (h : Opened handles posix) :
    Held handles (new handles posix) := by
  obtain ⟨outputParent, temporaryParent, hat⟩ := h
  refine ⟨fun _ => ⟨outputParent, temporaryParent, false, hat⟩, nofun, ?_⟩
  show posix.entries.renames = posix.locals.committed.toNat
  rw [hat.entries, hat.locals]
  rfl

theorem renameat_spec {kept : List Nat} {locals : PosixLocals} {entries : PosixEntries}
    {E : Posix → Prop} (oldParent : Option Nat) (oldName : String) (newParent : Option Nat)
    (newName : String) :
    Triple (At ⟨[], kept, locals, entries⟩)
      (renameat natives oldParent oldName newParent newName)
      (fun renamed => At ⟨[], kept, locals,
        if renamed then { entries with data := false, renames := entries.renames + 1 }
        else entries⟩) E := by
  apply Triple.bind (native_spec _)
  intro succeeded
  apply Triple.ite
  · -- a rename that succeeds moves the data out of the directory
    intro _
    apply Triple.bind (Q := fun _ => At ⟨[], kept, locals,
      { entries with data := false, renames := entries.renames + 1 }⟩)
    · apply Triple.update
      intro s h
      exact ⟨h.holds, h.kept, h.locals,
        congrArg (fun e : PosixEntries => { e with data := false, renames := e.renames + 1 })
          h.entries⟩
    · intro _
      exact Triple.ret fun _ h => h
  · intro _
    exact Triple.ret fun _ h => h

/-- `commit` commits or changes nothing. -/
theorem commit_spec (natives : Natives) (output : FilePath) (handles : Handles)
    (outputParent temporaryParent : Nat) (committed disposed : Bool) :
    Triple (At (openStage handles outputParent temporaryParent committed))
      (Posix.commit natives output disposed)
      (fun _ => At (openStage handles outputParent temporaryParent true))
      (At (openStage handles outputParent temporaryParent committed)) := by
  apply Triple.bind (Q := fun locals s =>
    locals = ⟨some outputParent, some temporaryParent, committed, true⟩ ∧
      At (openStage handles outputParent temporaryParent committed) s)
  · apply Triple.modifying
    intro s h
    exact ⟨h.locals, h⟩
  intro locals
  apply Triple.checked
  rintro rfl
  apply Triple.bind (failIf_spec fun _ _ h => h)
  intro _
  apply Triple.checked
  intro hstate
  -- a second `commit` does not get past the check
  have hfirst : committed = false := by
    rw [Bool.eq_false_iff]
    rintro rfl
    simp at hstate
  subst hfirst
  apply Triple.bind (renameat_spec _ _ _ _)
  intro renamed
  apply Triple.bind (failIf_spec fun hrenamed _ h => by
    rw [hrenamed] at h
    exact h)
  intro _
  apply Triple.checked
  intro hrenamed
  have htrue : renamed = true := by simpa using hrenamed
  rw [htrue]
  exact setLocals_spec fun locals => { locals with committed := true }

/-- A round of the write loop starts a native write or ends the loop. -/
theorem writeLoop_posix (s : AtomicFileSession) (chunk : Bytes) (offset work : Nat) :
    (writeLoop chunk offset work s).posix = s.posix ∧
      (writeLoop chunk offset work s).resolved = s.resolved := by
  unfold writeLoop
  split
  · split
    · exact ⟨rfl, rfl⟩
    · exact ⟨rfl, rfl⟩
  · exact ⟨rfl, rfl⟩

/-- Whatever else happens leaves descriptors and directories alone. -/
theorem step_posix (natives : Natives) (output : FilePath) (temporary : String)
    (s : AtomicFileSession) {action : Action} (hcommit : action ≠ .commit)
    (hsettled : action ≠ .disposeSettled) :
    (step natives output temporary s action).posix = s.posix ∧
      (step natives output temporary s action).resolved = s.resolved := by
  cases action with
  | commit => exact absurd rfl hcommit
  | disposeSettled => exact absurd rfl hsettled
  | write chunk => exact writeLoop_posix _ _ _ _
  | writeSettled =>
    unfold step AtomicFileSession.writeSettled
    simp only
    -- a write of no bytes or an error ends the loop, and progress goes on with it
    split
    · split
      · exact ⟨rfl, rfl⟩
      · exact writeLoop_posix _ _ _ _
      · exact ⟨rfl, rfl⟩
    · exact ⟨rfl, rfl⟩
  | readSettled =>
    unfold step AtomicFileSession.readSettled
    simp only
    split
    · split
      · split
        · exact ⟨rfl, rfl⟩
        · exact ⟨rfl, rfl⟩
      · exact ⟨rfl, rfl⟩
    · exact ⟨rfl, rfl⟩
  | read =>
    unfold step AtomicFileSession.read
    simp only
    split
    · exact ⟨rfl, rfl⟩
    · exact ⟨rfl, rfl⟩
  | readReturned data =>
    unfold step AtomicFileSession.readReturned
    simp only
    split
    · exact ⟨rfl, rfl⟩
    · exact ⟨rfl, rfl⟩
  | writeReturned count =>
    unfold step AtomicFileSession.writeReturned
    simp only
    split
    · exact ⟨rfl, rfl⟩
    · exact ⟨rfl, rfl⟩
  | callback =>
    unfold step AtomicFileSession.callback
    simp only
    split
    · exact ⟨rfl, rfl⟩
    · exact ⟨rfl, rfl⟩
  | dispose =>
    unfold step AtomicFileSession.dispose
    simp only
    split
    · exact ⟨rfl, rfl⟩
    · exact ⟨rfl, rfl⟩
  | destroySource => exact ⟨rfl, rfl⟩
  | destroyDestination => exact ⟨rfl, rfl⟩

/-- A disposed session is not committed. -/
theorem commit_disposed (hdisposed : s.disposed = true) : s.commit natives output = s := by
  have hrun : (Posix.commit natives output s.disposed).run s.posix =
      .error (plainError "[PipeX] Secure file commit state failed") s.posix := by
    rw [hdisposed]
    rfl
  rw [commit, hrun]

theorem Held.commit (natives : Natives) (output : FilePath) {handles : Handles}
    (h : Held handles s) (hguarded : Guarded s) :
    Held handles (s.commit natives output) ∧
      ((s.commit natives output).posix.entries.renames ≠ s.posix.entries.renames →
        s.commitOutcome natives output = .ok ()) := by
  cases hresolved : s.resolved with
  | true =>
    -- `dispose` has set `disposed` long ago
    rw [commit_disposed (hguarded.resolved hresolved).1]
    exact ⟨h, fun hne => absurd rfl hne⟩
  | false =>
    obtain ⟨outputParent, temporaryParent, committed, hat⟩ := h.held hresolved
    have hspec := commit_spec natives output handles outputParent temporaryParent committed
      s.disposed s.posix hat
    rw [AtomicFileSession.commit, commitOutcome]
    cases hrun : (Posix.commit natives output s.disposed).run s.posix with
    | ok r posix =>
      rw [hrun] at hspec
      simp only at hspec ⊢
      refine ⟨⟨fun _ => ⟨outputParent, temporaryParent, true, hspec⟩, ?_, ?_⟩, fun _ => trivial⟩
      · intro hresolved'
        rw [hresolved] at hresolved'
        cases hresolved'
      · rw [hspec.entries, hspec.locals]
        rfl
    | error e posix =>
      rw [hrun] at hspec
      simp only at hspec ⊢
      refine ⟨⟨fun _ => ⟨outputParent, temporaryParent, committed, hspec⟩, ?_, ?_⟩, ?_⟩
      · intro hresolved'
        rw [hresolved] at hresolved'
        cases hresolved'
      · rw [hspec.entries, hspec.locals]
        rfl
      · intro hne
        rw [hspec.entries, hat.entries] at hne
        exact absurd rfl hne

/-- What `cleanup` finds behind `dispose` it can undo. -/
theorem undoable_openStage (handles : Handles) (outputParent temporaryParent : Nat)
    (committed : Bool) :
    Undoable (openStage handles outputParent temporaryParent committed).locals
      (openStage handles outputParent temporaryParent committed).entries :=
  ⟨fun _ => ⟨rfl, rfl⟩, fun hdata => ⟨by simpa [openStage] using hdata, rfl⟩⟩

section

variable (hunlink : ∀ n parent name removeDirectory,
  natives.succeeds n (.unlinkat parent name removeDirectory) = true)

include hunlink

theorem Held.disposeSettled (temporary : String) {handles : Handles} (h : Held handles s)
    (hresolved : s.resolved = false) :
    Held handles (s.disposeSettled natives temporary) ∧
      (s.disposeSettled natives temporary).posix.entries.renames = s.posix.entries.renames := by
  obtain ⟨outputParent, temporaryParent, committed, hat⟩ := h.held hresolved
  obtain ⟨hreleased, hrenames, hlocals⟩ := cleanup_released hunlink temporary hat
    (undoable_openStage handles outputParent temporaryParent committed)
  have hkeeps : (cleanup natives temporary s.posix).entries.renames = s.posix.entries.renames :=
    hrenames.trans (congrArg PosixEntries.renames hat.entries).symm
  refine ⟨⟨nofun, fun _ => hreleased, ?_⟩, hkeeps⟩
  show (cleanup natives temporary s.posix).entries.renames =
    (cleanup natives temporary s.posix).locals.committed.toNat
  rw [hkeeps, h.renames, hlocals.trans hat.locals.symm]

/-- Only a `commit` that succeeds binds the output name. -/
theorem held_step {handles : Handles} {action : Action} (h : Held handles s)
    (hguarded : Guarded s) (henabled : enabled s action) :
    Held handles (step natives output temporary s action) ∧
      ((step natives output temporary s action).posix.entries.renames ≠ s.posix.entries.renames →
        action = .commit ∧ s.commitOutcome natives output = .ok ()) := by
  by_cases hcommit : action = .commit
  · subst hcommit
    obtain ⟨hheld, hrebound⟩ := h.commit natives output hguarded
    exact ⟨hheld, fun hne => ⟨rfl, hrebound hne⟩⟩
  by_cases hsettled : action = .disposeSettled
  · subst hsettled
    obtain ⟨hheld, hkeeps⟩ := h.disposeSettled hunlink temporary henabled.2.1
    exact ⟨hheld, fun hne => absurd hkeeps hne⟩
  · -- nothing else calls the native binding for an entry
    obtain ⟨hposix, hresolved⟩ := step_posix natives output temporary s hcommit hsettled
    refine ⟨⟨?_, ?_, ?_⟩, ?_⟩
    · rw [hposix, hresolved]
      exact h.held
    · rw [hposix, hresolved]
      exact h.released
    · rw [hposix]
      exact h.renames
    · rw [hposix]
      intro hne
      exact absurd rfl hne

end

/-! ## Whole runs -/

/-- What holds of a session at any time. -/
structure Sound (handles : Handles) (s : AtomicFileSession) : Prop where
  guarded : Guarded s
  accounted : Accounted s
  held : Held handles s

theorem sound_new {handles : Handles} {posix : Posix} (h : Opened handles posix) :
    Sound handles (new handles posix) :=
  ⟨guarded_new handles posix, accounted_new handles posix, held_new h⟩

/-- Behind `dispose` no native call is under way. -/
theorem Sound.unresolved {handles : Handles} (h : Sound handles s) (hrunning : s.running ≠ []) :
    s.resolved = false := by
  rw [Bool.eq_false_iff]
  intro hresolved
  obtain ⟨hdisposed, hsettled⟩ := h.guarded.resolved hresolved
  exact hrunning (h.guarded.none_running hdisposed hsettled)

/-- Before `dispose` goes on, the descriptors of the streams are open. -/
theorem Sound.not_released {handles : Handles} (h : Sound handles s) (hresolved : s.resolved = false)
    {fd : Nat} (hfd : fd ∈ [handles.outputFD, handles.inputFD]) :
    fd ∉ s.posix.ledger.released := by
  obtain ⟨outputParent, temporaryParent, committed, hat⟩ := h.held.held hresolved
  exact hat.holds.not_released (List.mem_append_left _ (hat.kept fd hfd))

/-- Where `openPosix` throws, and once `dispose` has resolved, every descriptor has been
    closed once and nothing is left of the temporary directory; a native read or write
    is under way only while its descriptor is open; the output name is bound by a
    `commit` that succeeds, and once; and when all writes have completed, the file
    holds their chunks. -/
theorem openPosix_allOrNothing (natives : Natives)
    (hunlink : ∀ n parent name removeDirectory,
      natives.succeeds n (.unlinkat parent name removeDirectory) = true)
    (input output : FilePath) (temporary : String) :
    (∀ e posix, (openPosix natives input output temporary).run start = .error e posix →
      posix.Released ∧ posix.entries.renames = 0) ∧
    ∀ handles posix, (openPosix natives input output temporary).run start = .ok handles posix →
      ∀ actions, (machine natives output temporary).Legal (new handles posix) actions →
        let s := (machine natives output temporary).run (new handles posix) actions
        (s.resolved = true → s.posix.Released ∧ ¬ s.ReadRunning ∧ ¬ s.WriteRunning) ∧
        (s.ReadRunning → handles.inputFD ∉ s.posix.ledger.released) ∧
        (s.WriteRunning → handles.outputFD ∉ s.posix.ledger.released) ∧
        s.posix.entries.renames = s.posix.locals.committed.toNat ∧
        (machine natives output temporary).Along (fun s action =>
          (step natives output temporary s action).posix.entries.renames ≠
              s.posix.entries.renames →
            action = .commit ∧ s.commitOutcome natives output = .ok ())
          (new handles posix) actions ∧
        (s.WritesCompleted → s.content = s.chunks.flatten) := by
  have hspec := openPosix_spec hunlink input output temporary start rfl
  constructor
  · intro e posix hrun
    rw [hrun] at hspec
    exact hspec
  · intro handles posix hrun actions hlegal s
    rw [hrun] at hspec
    have hstep : ∀ s action, Sound handles s → enabled s action →
        Sound handles (step natives output temporary s action) := by
      intro s action h henabled
      exact ⟨guarded_step h.guarded henabled, accounted_step h.accounted henabled,
        (held_step hunlink h.held h.guarded henabled).1⟩
    have h : Sound handles s := Machine.invariant hstep (sound_new hspec) hlegal
    refine ⟨?_, ?_, ?_, h.held.renames, ?_, h.accounted.content_eq⟩
    -- `dispose` has resolved
    · intro hresolved
      have hidle : s.running = [] := by
        by_contra hrunning
        have hunresolved := h.unresolved hrunning
        rw [hresolved] at hunresolved
        cases hunresolved
      exact ⟨h.held.released hresolved, fun hread => hread.running_ne hidle,
        fun hwrite => hwrite.running_ne hidle⟩
    -- the two directions of I/O
    · intro hread
      exact h.not_released (h.unresolved hread.running_ne) (by simp)
    · intro hwrite
      exact h.not_released (h.unresolved hwrite.running_ne) (by simp)
    -- what binds the output name
    · exact Machine.along_of_invariant hstep
        (fun s action h henabled => (held_step hunlink h.held h.guarded henabled).2)
        (sound_new hspec) hlegal

/-- A system where every call succeeds and every file is another one. -/
def obligingNatives : Natives where
  succeeds _ _ := true
  stat number := ⟨true, 1, number, 0o700, 1000⟩
  error _ := plainError "EIO"
  geteuid := some 1000

/-- Behind `openPosix` there, for two names in the root. -/
def obligingPosix : Posix :=
  ⟨14, ⟨6, [3]⟩, [0, 1, 2, 4, 5], ⟨some 1, some 4, false, true⟩, ⟨true, true, 0⟩⟩

/-- A chunk is written in two pieces and the file is committed, while a read that is
    under way keeps `dispose` waiting. -/
def copyingRun : List Action :=
  [.write [1, 2, 3], .writeReturned (some 2), .writeSettled, .writeReturned (some 1),
    .writeSettled, .callback, .read, .commit, .dispose, .readReturned (some []), .disposeSettled]

/-- The file holds the chunk, and nothing else is left. -/
theorem openPosix_allOrNothing_copying :
    ∃ handles posix,
      (openPosix obligingNatives ⟨"/", [], "in"⟩ ⟨"/", [], "out"⟩ ".pipex-0").run start =
        .ok handles posix ∧
      let s := (machine obligingNatives ⟨"/", [], "out"⟩ ".pipex-0").run (new handles posix)
        copyingRun
      s.posix.Released ∧ s.posix.entries.renames = 1 ∧ s.content = [1, 2, 3] := by
  obtain ⟨-, hall⟩ := openPosix_allOrNothing obligingNatives (fun _ _ _ _ => rfl)
    ⟨"/", [], "in"⟩ ⟨"/", [], "out"⟩ ".pipex-0"
  have hrun : (openPosix obligingNatives ⟨"/", [], "in"⟩ ⟨"/", [], "out"⟩ ".pipex-0").run
      start = .ok ⟨2, 5⟩ obligingPosix := by rfl
  have hlegal : (machine obligingNatives ⟨"/", [], "out"⟩ ".pipex-0").Legal
      (new ⟨2, 5⟩ obligingPosix) copyingRun :=
    ⟨⟨rfl, rfl⟩, ⟨_, _, _, _, rfl, by decide⟩, ⟨_, _, _, _, _, rfl⟩, ⟨_, _, _, _, rfl, by decide⟩,
      ⟨_, _, _, _, _, rfl⟩, ⟨_, _, _, _, rfl⟩, rfl, trivial, trivial, ⟨⟨_, rfl⟩, by decide⟩,
      ⟨rfl, rfl, by decide⟩, trivial⟩
  obtain ⟨hresolved, -, -, hrenames, -, hcontent⟩ := hall _ _ hrun copyingRun hlegal
  exact ⟨_, _, hrun, (hresolved rfl).1, hrenames, hcontent rfl⟩

end PipeX.AtomicFileSession
