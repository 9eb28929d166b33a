/-
  PipeX.Core.SecureFiles.Acquisition

  Wherever `openPosix` fails, `cleanup` finds what has been created and closes what
  has been opened.
-/
import PipeX.Core.SecureFiles.Posix

namespace PipeX.Posix

/-! ## Stages -/

/-- How far `openPosix` has got. -/
structure Stage where
  /-- what has been opened and is not in `descriptors` -/
  loose : List Nat
  /-- some of what is in `descriptors` -/
  kept : List Nat
  locals : PosixLocals
  entries : PosixEntries

structure At (stage : Stage) (s : Posix) : Prop where
  holds : s.ledger.Holds (s.descriptors ++ stage.loose)
  kept : ∀ fd ∈ stage.kept, fd ∈ s.descriptors
  locals : s.locals = stage.locals
  entries : s.entries = stage.entries

/-- `cleanup` knows of everything there is. -/
structure Undoable (locals : PosixLocals) (entries : PosixEntries) : Prop where
  directory : entries.directory = true →
    locals.temporaryCreated = true ∧ locals.outputParent.isSome
  data : entries.data = true → locals.committed = false ∧ locals.temporaryParent.isSome

/-- Where `openPosix` may fail. -/
def Failing (s : Posix) : Prop :=
  ∃ kept locals entries, At ⟨[], kept, locals, entries⟩ s ∧ Undoable locals entries ∧
    entries.renames = 0

/-- Every descriptor has been closed once, and nothing is left of the temporary directory. -/
structure Released (s : Posix) : Prop where
  closed : s.ledger.Settled
  directory : s.entries.directory = false
  data : s.entries.data = false

variable {natives : Natives} {stage : Stage} {loose kept : List Nat} {locals : PosixLocals}
  {entries : PosixEntries} {E : Posix → Prop}

theorem at_start : At ⟨[], [], start.locals, start.entries⟩ start :=
  ⟨Ledger.holds_new, nofun, rfl, rfl⟩

theorem At.drop {fd : Nat} {s : Posix} (h : At ⟨loose, fd :: kept, locals, entries⟩ s) :
    At ⟨loose, kept, locals, entries⟩ s :=
  ⟨h.holds, fun fd' hfd' => h.kept fd' (List.mem_cons_of_mem _ hfd'), h.locals, h.entries⟩

/-! ## Native calls -/

theorem native_spec (call : NativeCall) :
    Triple (At stage) (native natives call) (fun _ => At stage) E :=
  Triple.modifying fun _ h => ⟨h.holds, h.kept, h.locals, h.entries⟩

theorem fsCall_spec (call : NativeCall) :
    Triple (At stage) (fsCall natives call) (fun _ => At stage) (At stage) := by
  refine Triple.bind (Q := fun _ => At stage) (Triple.modifying fun _ h => h) fun number => ?_
  apply Triple.bind (native_spec call)
  intro succeeded
  apply Triple.ite
  · intro _
    exact Triple.ret fun _ h => h
  · intro _
    exact Triple.fail fun _ h => h

theorem acquire_spec :
    Triple (At ⟨[], kept, locals, entries⟩) acquire
      (fun fd => At ⟨[fd], kept, locals, entries⟩) E := by
  apply Triple.modifying
  intro s h
  have hholds : s.ledger.Holds s.descriptors := by simpa using h.holds
  exact ⟨hholds.acquire, h.kept, h.locals, h.entries⟩

theorem push_spec (fd : Nat) :
    Triple (At ⟨[fd], kept, locals, entries⟩) (push fd)
      (fun _ => At ⟨[], fd :: kept, locals, entries⟩) E := by
  apply Triple.update
  intro s h
  refine ⟨?_, ?_, h.locals, h.entries⟩
  · simpa using h.holds
  · intro fd' hfd'
    rcases List.mem_cons.mp hfd' with rfl | hfd'
    · exact List.mem_append_right _ (List.mem_singleton.mpr rfl)
    · exact List.mem_append_left _ (h.kept fd' hfd')

theorem openat_spec (parent : Nat) (name : String) (flags : List OpenFlag) (mode : Nat) :
    Triple (At ⟨[], kept, locals, entries⟩) (openat natives parent name flags mode)
      (fun
        | none => At ⟨[], kept, locals, entries⟩
        | some fd => At ⟨[fd], kept, locals, opened flags entries⟩) E := by
  apply Triple.bind (native_spec _)
  intro succeeded
  apply Triple.ite
  · intro _
    have hopened : Triple (At ⟨[], kept, locals, entries⟩)
        (modify fun s : Posix => { s with entries := opened flags s.entries } : PosixCall PUnit)
        (fun _ => At ⟨[], kept, locals, opened flags entries⟩) E := by
      apply Triple.update
      intro s h
      exact ⟨h.holds, h.kept, h.locals, congrArg (opened flags) h.entries⟩
    apply Triple.bind hopened
    intro _
    apply Triple.bind acquire_spec
    intro fd
    exact Triple.ret fun _ h => h
  · intro _
    exact Triple.ret fun _ h => h

theorem fstatSync_spec (fd : Nat) :
    Triple (At stage) (fstatSync natives fd) (fun _ => At stage) (At stage) := by
  apply Triple.bind (fsCall_spec _)
  intro number
  exact Triple.ret fun _ h => h

theorem mkdirat_spec (parent : Nat) (name : String) (mode : Nat) :
    Triple (At ⟨[], kept, locals, entries⟩) (mkdirat natives parent name mode)
      (fun created => At ⟨[], kept, locals,
        { entries with directory := created || entries.directory }⟩) E := by
  apply Triple.bind (native_spec _)
  intro succeeded
  apply Triple.ite
  · intro _
    apply Triple.bind (Q := fun _ => At ⟨[], kept, locals, { entries with directory := true }⟩)
    · apply Triple.update
      intro s h
      exact ⟨h.holds, h.kept, h.locals, congrArg (fun e => { e with directory := true }) h.entries⟩
    · intro _
      exact Triple.ret fun _ h => h
  · intro _
    exact Triple.ret fun _ h => h

/-- A descriptor outside of `descriptors` is closed on its own. -/
theorem closeSync_spec (fd : Nat) :
    Triple (At ⟨[fd], kept, locals, entries⟩) (closeSync natives fd)
      (fun _ => At ⟨[], kept, locals, entries⟩) (At ⟨[], kept, locals, entries⟩) := by
  apply Triple.bind (Q := fun _ => At ⟨[], kept, locals, entries⟩)
  · apply Triple.update
    intro s h
    refine ⟨?_, h.kept, h.locals, h.entries⟩
    have hholds : s.ledger.Holds ([fd] ++ s.descriptors) := h.holds.perm List.perm_append_comm
    rw [List.append_nil]
    exact hholds.release
  · intro _
    apply Triple.bind (fsCall_spec _)
    intro number
    exact Triple.ret fun _ h => h

/-! ## Checks and variables -/

theorem failIf_spec {c : Prop} [Decidable c] {operation : String} {P : Posix → Prop}
    (h : c → ∀ s, P s → E s) : Triple P (failIf c operation) (fun _ s => ¬ c ∧ P s) E := by
  apply Triple.ite
  · intro hc
    exact Triple.fail (h hc)
  · intro hc
    exact Triple.ret fun _ hs => ⟨hc, hs⟩

theorem setLocals_spec (f : PosixLocals → PosixLocals) :
    Triple (At ⟨loose, kept, locals, entries⟩)
      (modify fun s : Posix => { s with locals := f s.locals } : PosixCall PUnit)
      (fun _ => At ⟨loose, kept, f locals, entries⟩) E := by
  apply Triple.update
  intro s h
  exact ⟨h.holds, h.kept, congrArg f h.locals, h.entries⟩

/-! ## openPosix -/

theorem failing_of_at {s : Posix} (h : At ⟨[], kept, locals, entries⟩ s)
    (hundo : Undoable locals entries) (hrenames : entries.renames = 0) : Failing s :=
  ⟨kept, locals, entries, h, hundo, hrenames⟩

section

variable (hundo : Undoable locals entries) (hrenames : entries.renames = 0)

include hundo hrenames

theorem openChild_spec (parent : Nat) (name : String) (flags : List OpenFlag) (mode : Nat)
    (hopened : Undoable locals (opened (flags ++ [.nofollow]) entries)) :
    Triple (At ⟨[], kept, locals, entries⟩) (openChild natives parent name flags mode)
      (fun fd => At ⟨[], fd :: kept, locals, opened (flags ++ [.nofollow]) entries⟩) Failing := by
  have hnone : (opened (flags ++ [.nofollow]) entries).renames = 0 := by
    rw [opened]
    split
    · exact hrenames
    · exact hrenames
  apply Triple.bind (openat_spec _ _ _ _)
  intro r
  cases r with
  | none => exact Triple.fail fun _ h => failing_of_at h hundo hrenames
  | some fd =>
    apply Triple.bind (push_spec fd)
    intro _
    apply Triple.bind (native_spec _)
    intro succeeded
    apply Triple.ite
    · intro _
      exact Triple.ret fun _ h => h
    · intro _
      exact Triple.fail fun _ h => failing_of_at h hopened hnone

/-- Without `O_CREAT` nothing comes into being. -/
theorem openChild_keeps (parent : Nat) (name : String) (flags : List OpenFlag) (mode : Nat)
    (hflags : .creat ∉ flags ++ [.nofollow]) :
    Triple (At ⟨[], kept, locals, entries⟩) (openChild natives parent name flags mode)
      (fun fd => At ⟨[], fd :: kept, locals, entries⟩) Failing := by
  have hopened : opened (flags ++ [.nofollow]) entries = entries := if_neg hflags
  have hspec : Triple (At ⟨[], kept, locals, entries⟩) (openChild natives parent name flags mode)
      (fun fd => At ⟨[], fd :: kept, locals, opened (flags ++ [.nofollow]) entries⟩) Failing :=
    openChild_spec hundo hrenames parent name flags mode (hopened.symm ▸ hundo)
  rw [hopened] at hspec
  exact hspec

theorem openParent_spec (filename : FilePath) :
    Triple (At ⟨[], kept, locals, entries⟩) (openParent natives filename)
      (fun _ => At ⟨[], kept, locals, entries⟩) Failing := by
  have hfailing : ∀ s, At ⟨[], kept, locals, entries⟩ s → Failing s :=
    fun _ h => failing_of_at h hundo hrenames
  have hroot : Triple (At ⟨[], kept, locals, entries⟩)
      (openSync natives filename.root [.rdonly, .directory])
      (fun fd => At ⟨[fd], kept, locals, entries⟩) Failing := by
    apply Triple.bind ((fsCall_spec _).weaken (fun _ h => h) (fun _ _ h => h) hfailing)
    intro number
    exact acquire_spec
  apply Triple.bind hroot
  intro fd
  apply Triple.bind ((push_spec fd).weaken (fun _ h => h) (fun _ _ h => h.drop) fun _ h => h)
  intro _
  -- the walk keeps the stage, wherever it has got to
  apply Triple.foldlM (I := fun _ => At ⟨[], kept, locals, entries⟩)
  intro fd part
  exact (openChild_keeps hundo hrenames fd part _ 0 (by decide)).weaken (fun _ h => h)
    (fun _ _ h => h.drop) fun _ h => h

/-- The descriptor of the file behind the output name is closed in any case. -/
theorem checkExisting_spec (outputParent : Nat) (base : String) (sourceStat : Stat) :
    Triple (At ⟨[], kept, locals, entries⟩)
      (checkExisting natives outputParent base sourceStat)
      (fun _ => At ⟨[], kept, locals, entries⟩) Failing := by
  have hfailing : ∀ s, At ⟨[], kept, locals, entries⟩ s → Failing s :=
    fun _ h => failing_of_at h hundo hrenames
  apply Triple.bind (openat_spec _ _ _ _)
  intro r
  cases r with
  | none => exact Triple.ret fun _ h => h
  | some existing =>
    have hclose : Triple (At ⟨[existing], kept, locals, entries⟩) (closeSync natives existing)
        (fun _ => At ⟨[], kept, locals, entries⟩) Failing :=
      (closeSync_spec existing).weaken (fun _ h => h) (fun _ _ h => h) hfailing
    -- in the `try` block the descriptor is loose, whether it returns or throws
    refine Triple.finishing (R := fun _ => At ⟨[existing], kept, locals, entries⟩)
      (F := At ⟨[existing], kept, locals, entries⟩) ?_ (fun _ => hclose)
      (hclose.weaken (fun _ h => h) (fun _ => hfailing) fun _ h => h)
    apply Triple.bind (fstatSync_spec existing)
    intro targetStat
    apply Triple.ite
    · intro _
      exact Triple.fail fun _ h => h
    · intro _
      exact Triple.ret fun _ h => h

end

/-- All that a session is built on has been acquired. -/
def Opened (handles : Handles) (s : Posix) : Prop :=
  ∃ outputParent temporaryParent,
    At ⟨[], [handles.outputFD, handles.inputFD],
      ⟨some outputParent, some temporaryParent, false, true⟩, ⟨true, true, 0⟩⟩ s

theorem acquisition_spec (input output : FilePath) (temporary : String) :
    Triple (At ⟨[], [], start.locals, start.entries⟩)
      (acquisition natives input output temporary) Opened Failing := by
  have hstart : Undoable start.locals start.entries := ⟨nofun, nofun⟩
  apply Triple.bind (openParent_spec hstart rfl input)
  intro inputParent
  apply Triple.bind (openParent_spec hstart rfl output)
  intro outputParent
  apply Triple.bind (setLocals_spec fun locals => { locals with outputParent := some outputParent })
  intro _
  -- nothing has been created so far
  have hparent : Undoable ⟨some outputParent, none, false, false⟩ start.entries := ⟨nofun, nofun⟩
  apply Triple.bind (openChild_keeps hparent rfl _ _ _ _ (by decide))
  intro inputFD
  apply Triple.bind ((fstatSync_spec inputFD).weaken (fun _ h => h) (fun _ _ h => h)
    fun _ h => failing_of_at h hparent rfl)
  intro sourceStat
  apply Triple.bind (failIf_spec fun _ _ h => failing_of_at h hparent rfl)
  intro _
  apply Triple.checked
  intro _
  apply Triple.bind (checkExisting_spec hparent rfl _ _ _)
  intro _
  apply Triple.bind (mkdirat_spec outputParent temporary 0o700)
  intro created
  apply Triple.bind (failIf_spec fun hcreated _ h => failing_of_at h (by
    rw [hcreated]
    exact hparent) rfl)
  intro _
  apply Triple.checked
  intro hcreated
  have htrue : created = true := by simpa using hcreated
  rw [htrue]
  apply Triple.bind (setLocals_spec fun locals => { locals with temporaryCreated := true })
  intro _
  -- the directory is there
  have hdirectory : Undoable ⟨some outputParent, none, false, true⟩ ⟨true, false, 0⟩ :=
    ⟨fun _ => ⟨rfl, rfl⟩, nofun⟩
  apply Triple.bind (openChild_keeps hdirectory rfl _ _ _ _ (by decide))
  intro temporaryParent
  apply Triple.bind
    (setLocals_spec fun locals => { locals with temporaryParent := some temporaryParent })
  intro _
  have htemporary : Undoable ⟨some outputParent, some temporaryParent, false, true⟩
      ⟨true, false, 0⟩ := ⟨fun _ => ⟨rfl, rfl⟩, nofun⟩
  apply Triple.bind ((fstatSync_spec temporaryParent).weaken (fun _ h => h) (fun _ _ h => h)
    fun _ h => failing_of_at h htemporary rfl)
  intro tempStat
  apply Triple.bind (failIf_spec fun _ _ h => failing_of_at h htemporary rfl)
  intro _
  apply Triple.checked
  intro _
  -- and so is its entry
  have hdata : Undoable ⟨some outputParent, some temporaryParent, false, true⟩
      ⟨true, true, 0⟩ := ⟨fun _ => ⟨rfl, rfl⟩, fun _ => ⟨rfl, rfl⟩⟩
  apply Triple.bind
    (openChild_spec htemporary rfl temporaryParent "data" [.wronly, .creat, .excl] _ hdata)
  intro outputFD
  apply Triple.ret
  intro s h
  refine ⟨outputParent, temporaryParent, h.holds, ?_, h.locals, h.entries⟩
  intro fd hfd
  apply h.kept
  simp only [List.mem_cons, List.not_mem_nil, or_false] at hfd ⊢
  tauto

/-! ## cleanup -/

section

variable (hunlink : ∀ n parent name removeDirectory,
  natives.succeeds n (.unlinkat parent name removeDirectory) = true)

include hunlink

theorem unlinkat_eq (parent : Nat) (name : String) (removeDirectory : Bool) (s : Posix) :
    unlinkat natives parent name removeDirectory s =
      { s with calls := s.calls + 1, entries := unlinked removeDirectory s.entries } :=
  if_pos (hunlink s.calls parent name removeDirectory)

theorem unlinkData_spec {s : Posix} (h : At ⟨[], kept, locals, entries⟩ s)
    (hundo : Undoable locals entries) :
    At ⟨[], kept, locals, { entries with data := false }⟩ (unlinkData natives s) := by
  obtain ⟨hholds, hkept, rfl, rfl⟩ := h
  have habsent : s.entries.data = false → At ⟨[], kept, s.locals, { s.entries with data := false }⟩ s :=
    fun hdata => ⟨hholds, hkept, rfl, by rw [← hdata]⟩
  unfold unlinkData
  cases hparent : s.locals.temporaryParent with
  | none =>
    -- `data` is created only when `temporaryParent` is set
    apply habsent
    rw [Bool.eq_false_iff]
    intro hdata
    have hsome := (hundo.data hdata).2
    rw [hparent] at hsome
    cases hsome
  | some fd =>
    simp only
    split
    · rename_i hcommitted
      -- the entry has been moved to the output name
      apply habsent
      rw [Bool.eq_false_iff]
      intro hdata
      rw [(hundo.data hdata).1] at hcommitted
      cases hcommitted
    · rw [unlinkat_eq hunlink]
      exact ⟨hholds, hkept, rfl, rfl⟩

theorem unlinkTemporary_spec {s : Posix} (temporary : String)
    (h : At ⟨[], kept, locals, { entries with data := false }⟩ s)
    (hundo : Undoable locals entries) :
    At ⟨[], kept, locals, ⟨false, false, entries.renames⟩⟩
      (unlinkTemporary natives temporary s) := by
  obtain ⟨hholds, hkept, rfl, hentries⟩ := h
  have habsent : entries.directory = false →
      At ⟨[], kept, s.locals, ⟨false, false, entries.renames⟩⟩ s :=
    fun hdirectory => ⟨hholds, hkept, rfl, by rw [hentries, hdirectory]⟩
  unfold unlinkTemporary
  cases hparent : s.locals.outputParent with
  | none =>
    -- the directory is created only when `outputParent` is set
    apply habsent
    rw [Bool.eq_false_iff]
    intro hdirectory
    have hsome := (hundo.directory hdirectory).2
    rw [hparent] at hsome
    cases hsome
  | some fd =>
    simp only
    split
    · -- it is empty by now, so it can be removed
      rw [unlinkat_eq hunlink, hentries]
      exact ⟨hholds, hkept, rfl, by simp [unlinked]⟩
    · rename_i hcreated
      apply habsent
      rw [Bool.eq_false_iff]
      intro hdirectory
      exact hcreated (hundo.directory hdirectory).1

/-- `cleanup` leaves nothing behind. -/
theorem cleanup_released {s : Posix} (temporary : String)
    (h : At ⟨[], kept, locals, entries⟩ s) (hundo : Undoable locals entries) :
    (cleanup natives temporary s).Released ∧
      (cleanup natives temporary s).entries.renames = entries.renames ∧
      (cleanup natives temporary s).locals = locals := by
  have hunlinked := unlinkTemporary_spec hunlink temporary (unlinkData_spec hunlink h hundo) hundo
  rw [cleanup]
  generalize unlinkTemporary natives temporary (unlinkData natives s) = s' at hunlinked
  obtain ⟨hholds, -, hlocals, hentries⟩ := hunlinked
  -- the order in which they are closed does not matter
  have hreversed : s'.ledger.Holds (s'.descriptors.reverse ++ []) :=
    hholds.perm ((List.reverse_perm _).append_right _)
  refine ⟨⟨hreversed.release.settled, ?_, ?_⟩, ?_, hlocals⟩
  · show s'.entries.directory = false
    rw [hentries]
  · show s'.entries.data = false
    rw [hentries]
  · show s'.entries.renames = entries.renames
    rw [hentries]

/-- `openPosix` acquires everything or leaves nothing behind. -/
theorem openPosix_spec (input output : FilePath) (temporary : String) :
    Triple (· = start) (openPosix natives input output temporary) Opened
      fun s => s.Released ∧ s.entries.renames = 0 := by
  refine Triple.catching (F := Failing) ?_ ?_
  · refine (acquisition_spec input output temporary).weaken ?_ (fun _ _ h => h) fun _ h => h
    rintro _ rfl
    exact at_start
  · intro error
    apply Triple.bind (Q := fun _ s => s.Released ∧ s.entries.renames = 0)
    · apply Triple.update
      rintro s ⟨kept, locals, entries, h, hundo, hrenames⟩
      obtain ⟨hreleased, hkeeps, -⟩ := cleanup_released hunlink temporary h hundo
      exact ⟨hreleased, hkeeps.trans hrenames⟩
    · intro _
      exact Triple.fail fun _ h => h

end

end PipeX.Posix
