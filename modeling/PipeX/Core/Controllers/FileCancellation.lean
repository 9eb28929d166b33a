/-
  PipeX.Core.Controllers.FileCancellation

  When a file operation that is cancelled leaves its output alone.  The signal is
  looked at for the last time before `commit` and again behind it, so a signal that
  is aborted or late in between makes a call reject whose output is there.
-/
import PipeX.Core.Controllers.FileController
import PipeX.Core.SecureFiles.AllOrNothing

namespace PipeX

open Transition

/-! ## Sessions of POSIX systems -/

namespace AtomicFileSession

/-- What happens to the streams, and not by a method of the session. -/
def Action.IsStream : Action → Prop
  | .commit => False
  | .dispose => False
  | .disposeSettled => False
  | _ => True

theorem commit_counts (natives : Natives) (output : FilePath) (disposed : Bool) (n : Nat) :
    Triple (fun s : Posix => s.entries.renames = n) (Posix.commit natives output disposed)
      (fun _ s => s.entries.renames = n + 1) (fun s => s.entries.renames = n) := by
  apply Triple.bind (Q := fun _ s => s.entries.renames = n)
  · exact Triple.modifying fun _ h => h
  intro locals
  apply Triple.bind (Posix.failIf_spec fun _ _ h => h)
  intro _
  apply Triple.checked
  intro _
  -- the one place where the count moves
  apply Triple.bind (Q := fun renamed s => s.entries.renames = if renamed then n + 1 else n)
  · apply Triple.bind (Q := fun _ s => s.entries.renames = n)
    · exact Triple.modifying fun _ h => h
    intro succeeded
    apply Triple.ite
    · intro _
      apply Triple.bind (Q := fun _ s => s.entries.renames = n + 1)
      · exact Triple.update fun _ h => congrArg (· + 1) h
      · intro _
        exact Triple.ret fun _ h => h
    · intro _
      exact Triple.ret fun _ h => h
  intro renamed
  apply Triple.bind (Posix.failIf_spec fun hrenamed _ h => by
    rw [hrenamed] at h
    exact h)
  intro _
  apply Triple.checked
  intro hrenamed
  apply Triple.update
  intro s h
  rw [if_pos (by simpa using hrenamed)] at h
  exact h

theorem commit_renames (natives : Natives) (output : FilePath) (s : AtomicFileSession) :
    (s.commit natives output).posix.entries.renames =
      if s.commitOutcome natives output = .ok () then s.posix.entries.renames + 1
      else s.posix.entries.renames := by
  have hcounts := commit_counts natives output s.disposed s.posix.entries.renames s.posix rfl
  rw [commit, commitOutcome]
  cases hrun : (Posix.commit natives output s.disposed).run s.posix with
  | ok r posix =>
    rw [hrun] at hcounts
    simp only [if_true]
    exact hcounts
  | error e posix =>
    rw [hrun] at hcounts
    simp only [reduceCtorEq, if_false]
    exact hcounts

theorem cleanup_renames (natives : Natives) (temporary : String) (posix : Posix) :
    (Posix.cleanup natives temporary posix).entries.renames = posix.entries.renames := by
  have hunlinkat : ∀ parent name removeDirectory (s : Posix),
      (Posix.unlinkat natives parent name removeDirectory s).entries.renames =
        s.entries.renames := by
    intro parent name removeDirectory s
    unfold Posix.unlinkat Posix.unlinked
    split
    · split
      · rfl
      · rfl
    · rfl
  -- the two entries are unlinked one after the other
  have hdata : (Posix.unlinkData natives posix).entries.renames = posix.entries.renames := by
    unfold Posix.unlinkData
    split
    · split
      · rfl
      · exact hunlinkat _ _ _ _
    · rfl
  show (Posix.unlinkTemporary natives temporary (Posix.unlinkData natives posix)).entries.renames = _
  unfold Posix.unlinkTemporary
  split
  · split
    · exact (hunlinkat _ _ _ _).trans hdata
    · exact hdata
  · exact hdata

end AtomicFileSession

/-- The sessions that `openPosix` returns. -/
def posixSessions (natives : Natives) (output : FilePath) (temporary : String) : SessionKind where
  State := AtomicFileSession
  Event := AtomicFileSession.Action
  streams := (AtomicFileSession.machine natives output temporary).restrict fun _ action =>
    action.IsStream
  written := AtomicFileSession.WritesCompleted
  commit s := (s.commitOutcome natives output, s.commit natives output)
  dispose := AtomicFileSession.dispose
  resumable s := AtomicFileSession.enabled s .disposeSettled
  resume := AtomicFileSession.disposeSettled natives temporary
  renames s := s.posix.entries.renames
  streams_renames s event henabled := by
    have hstream : event.IsStream := henabled.2
    have hcommit : event ≠ .commit := by
      rintro rfl
      exact hstream
    have hsettled : event ≠ .disposeSettled := by
      rintro rfl
      exact hstream
    exact congrArg (fun posix => posix.entries.renames)
      (AtomicFileSession.step_posix natives output temporary s hcommit hsettled).1
  commit_renames := AtomicFileSession.commit_renames natives output
  dispose_renames s := by
    unfold AtomicFileSession.dispose
    split
    · rfl
    · rfl
  resume_renames s := AtomicFileSession.cleanup_renames natives temporary s.posix

namespace FileOperation

variable {kind : SessionKind} {op : FileOperation kind} {method : FileMethod} {schema : Bool}

/-! ## Invariant -/

/-- A call that is bound to be cancelled has not bound the output name, and one that
    has bound it is not to be cancelled. -/
def Prompt (op : FileOperation kind) : Prop :=
  match op.progress with
  | .called => op.renames = 0
  | .running => op.renames = 0
  | .disposing (.error _) => op.renames = 0
  | .disposing (.ok ()) => 0 < op.renames ∧ op.signal.throws = false
  | .auditing => 0 < op.renames ∧ op.signal.throws = false
  | .audited => 0 < op.renames ∧ op.signal.throws = false
  | .settled (.error .abort) => op.renames = 0
  | .settled _ => True

theorem renames_eq {session : kind.State} (h : op.session = some session) :
    op.renames = kind.renames session := by
  rw [renames, h]
  rfl

theorem renames_resume (session : Option kind.State) :
    (session.map kind.resume).elim 0 kind.renames = session.elim 0 kind.renames := by
  cases session with
  | none => rfl
  | some session => exact kind.resume_renames session

/-- A call binds nothing on its way to the pipeline. -/
theorem begin_cases (method : FileMethod) (schema : Bool) (hunbound : op.renames = 0)
    (started : Bool) (opened : Option kind.Opened) :
    (op.begin method schema started opened).renames = 0 ∧
      ((op.begin method schema started opened).progress = .running ∨
        ∃ cause, (op.begin method schema started opened).progress = .settled (.error cause)) := by
  unfold FileOperation.begin
  split
  · exact ⟨hunbound, .inr ⟨_, rfl⟩⟩
  split
  · exact ⟨hunbound, .inr ⟨_, rfl⟩⟩
  split
  · exact ⟨hunbound, .inr ⟨_, rfl⟩⟩
  cases opened with
  | none => exact ⟨hunbound, .inr ⟨_, rfl⟩⟩
  | some session => exact ⟨session.property, .inl rfl⟩

/-- Behind the pipeline a call has bound its output, with a signal that is quiet, or the
    `try` block of `#withAtomicOutput` has failed. -/
theorem pipelineSettled_cases (hunbound : op.renames = 0) (result : Except Cause Unit) :
    op.pipelineSettled result = op ∨
      (∃ cause, (op.pipelineSettled result).progress = .disposing (.error cause) ∧
        (op.pipelineSettled result).renames = 0) ∨
      ((op.pipelineSettled result).progress = .disposing (.ok ()) ∧
        0 < (op.pipelineSettled result).renames ∧
        (op.pipelineSettled result).signal.throws = false) := by
  unfold FileOperation.pipelineSettled
  cases hsession : op.session with
  | none => exact .inl rfl
  | some session =>
    right
    rw [renames_eq hsession] at hunbound
    have hdispose : ∀ s, kind.renames s = 0 → kind.renames (kind.dispose s) = 0 :=
      fun s hs => (kind.dispose_renames s).trans hs
    cases result with
    | error cause => exact .inl ⟨cause, rfl, hdispose session hunbound⟩
    | ok result =>
      simp only
      split
      · exact .inl ⟨.abort, rfl, hdispose session hunbound⟩
      · -- the code commits where the signal is not aborted
        rename_i hquiet
        have hcommit := kind.commit_renames session
        rcases hcommitted : kind.commit session with ⟨outcome, session'⟩
        rw [hcommitted] at hcommit
        cases outcome with
        | ok r =>
          refine .inr ⟨rfl, ?_, Bool.eq_false_iff.mpr hquiet⟩
          show 0 < kind.renames (kind.dispose session')
          rw [kind.dispose_renames, hcommit]
          exact Nat.succ_pos _
        -- a commit that fails has renamed nothing
        | error e =>
          refine .inl ⟨.other, rfl, hdispose session' ?_⟩
          rw [hcommit]
          exact hunbound

theorem renames_stream {event : kind.Event} (henabled : enabled op (.stream event)) :
    (step method schema op (.stream event)).renames = op.renames := by
  obtain ⟨s, hsession, hevent⟩ := henabled
  rw [renames_eq hsession, step, renames, hsession]
  exact kind.streams_renames s event hevent

theorem Prompt.begin (h : Prompt op) (hcalled : op.progress = .called) (started : Bool)
    (opened : Option kind.Opened) : Prompt (op.begin method schema started opened) := by
  rw [Prompt, hcalled] at h
  obtain ⟨hunbound, hprogress⟩ := begin_cases method schema h started opened
  rw [Prompt]
  rcases hprogress with hrunning | ⟨cause, hsettled⟩
  · rw [hrunning]
    exact hunbound
  · rw [hsettled]
    cases cause with
    | abort => exact hunbound
    | other => trivial

theorem Prompt.pipelineSettled (h : Prompt op) (hrunning : op.progress = .running)
    (result : Except Cause Unit) : Prompt (op.pipelineSettled result) := by
  have hunbound : op.renames = 0 := by
    rw [Prompt, hrunning] at h
    exact h
  rcases pipelineSettled_cases hunbound result with heq | ⟨cause, hprogress, hnone⟩ | hbound
  · rw [heq]
    exact h
  · rw [Prompt, hprogress]
    exact hnone
  · rw [Prompt, hbound.1]
    exact hbound.2

theorem Prompt.sessionDisposed (h : Prompt op) {result : Except Cause Unit}
    (hdisposing : op.progress = .disposing result) : Prompt op.sessionDisposed := by
  unfold FileOperation.sessionDisposed
  simp only [hdisposing]
  rw [Prompt, hdisposing] at h
  match result with
  | .error .abort => exact (renames_resume _).trans h
  | .error .other => trivial
  | .ok () =>
    obtain ⟨hbound, hquiet⟩ := h
    simp only
    split
    · rename_i hthrows
      rw [hquiet] at hthrows
      cases hthrows
    · exact ⟨hbound.trans_eq (renames_resume _).symm, hquiet⟩

theorem Prompt.auditSettled (h : Prompt op) (hauditing : op.progress = .auditing)
    (logged : Bool) : Prompt (op.auditSettled logged) := by
  rw [Prompt, hauditing] at h
  obtain ⟨hbound, hquiet⟩ := h
  unfold FileOperation.auditSettled
  rw [hquiet]
  split
  · trivial
  · exact ⟨hbound, hquiet⟩

theorem Prompt.conclude (h : Prompt op) (haudited : op.progress = .audited) :
    Prompt op.conclude := by
  rw [Prompt, haudited] at h
  unfold FileOperation.conclude
  rw [h.2]
  trivial

/-- A call that has bound its output and goes on has a quiet signal. -/
theorem Prompt.quiet (h : Prompt op) (hbound : 0 < op.renames) :
    (∃ result, op.progress = .settled result) ∨ op.signal.throws = false := by
  have hnone : op.renames ≠ 0 := Nat.pos_iff_ne_zero.mp hbound
  rw [Prompt] at h
  cases hprogress : op.progress with
  | settled result => exact .inl ⟨result, rfl⟩
  -- nothing is renamed before `commit`
  | called => exact absurd (by simpa [hprogress] using h) hnone
  | running => exact absurd (by simpa [hprogress] using h) hnone
  | disposing result =>
    rw [hprogress] at h
    match result with
    | .error _ => exact absurd h hnone
    | .ok () => exact .inr h.2
  | auditing =>
    rw [hprogress] at h
    exact .inr h.2
  | audited =>
    rw [hprogress] at h
    exact .inr h.2

/-- The signal of a call that has bound nothing may be aborted or late. -/
theorem Prompt.cancel (h : Prompt op) (signal : Signal)
    (hunbound : 0 < op.renames → ∃ result, op.progress = .settled result) :
    Prompt { op with signal := signal } ∧ Prompt (interrupt { op with signal := signal }) := by
  obtain ⟨signal', progress, session⟩ := op
  have hopen : ∀ {P : Prop}, 0 < renames ⟨signal', progress, session⟩ →
      (∀ result, progress ≠ .settled result) → P := by
    intro P hbound hunsettled
    obtain ⟨result, hsettled⟩ := hunbound hbound
    exact absurd hsettled (hunsettled result)
  -- a call that waits for its session or the audit has bound its output, and it
  -- is not one of these
  match progress with
  | .called => exact ⟨h, h⟩
  | .running => exact ⟨h, h⟩
  | .disposing (.error _) => exact ⟨h, h⟩
  | .disposing (.ok ()) => exact hopen h.1 nofun
  | .auditing => exact hopen h.1 nofun
  | .audited => exact hopen h.1 nofun
  | .settled (.error .abort) => exact ⟨h, h⟩
  | .settled (.error .other) => exact ⟨trivial, trivial⟩
  | .settled (.ok ()) => exact ⟨trivial, trivial⟩

/-! ## Runs -/

/-- The signal is not aborted or late while a call that has bound its output goes on. -/
def Undisturbed (op : FileOperation kind) (action : Action kind) : Prop :=
  action = .abort ∨ action = .passDeadline →
    0 < op.renames → ∃ result, op.progress = .settled result

theorem prompt_step {action : Action kind} (h : Prompt op) (henabled : enabled op action)
    (hundisturbed : Undisturbed op action) : Prompt (step method schema op action) := by
  cases action with
  | begin started opened => exact h.begin henabled started opened
  | stream event =>
    rw [Prompt, renames_stream henabled]
    exact h
  | pipelineSettled result => exact h.pipelineSettled henabled.1 result
  | sessionDisposed =>
    obtain ⟨⟨result, hdisposing⟩, -⟩ := henabled
    exact h.sessionDisposed hdisposing
  | auditSettled logged => exact h.auditSettled henabled logged
  | conclude => exact h.conclude henabled
  | abort => exact (h.cancel _ (hundisturbed (.inl rfl))).2
  | passDeadline => exact (h.cancel _ (hundisturbed (.inr rfl))).1
  | fireTimer =>
    -- the deadline has passed before
    refine (h.cancel _ fun hbound => ?_).2
    rcases h.quiet hbound with hsettled | hquiet
    · exact hsettled
    · have hpassed : op.signal.deadlinePassed = true := henabled
      rw [Signal.throws, hpassed, Bool.or_true] at hquiet
      cases hquiet

/-- A call that is cancelled leaves its output alone, in every run in which the signal
    is not aborted or late between a `commit` that has succeeded and the end of the
    call. -/
theorem cancelled_keeps_output (kind : SessionKind) (method : FileMethod) (schema : Bool)
    {actions : List (Action kind)}
    (hlegal : (machine kind method schema).Legal (start kind) actions)
    (hundisturbed : (machine kind method schema).Along Undisturbed (start kind) actions) :
    let op := (machine kind method schema).run (start kind) actions
    op.progress = .settled (.error .abort) → op.renames = 0 := by
  intro op hcancelled
  have h : Prompt op := by
    rw [show op = ((machine kind method schema).restrict Undisturbed).run (start kind) actions
      from rfl]
    refine Machine.invariant (P := Prompt) ?_ rfl (Machine.restrict_legal hlegal hundisturbed)
    intro op action h henabled
    exact prompt_step h henabled.1 henabled.2
  rw [Prompt, hcancelled] at h
  exact h

/-- The sessions of a system where every call succeeds. -/
abbrev obligingSessions : SessionKind :=
  posixSessions AtomicFileSession.obligingNatives ⟨"/", [], "out"⟩ ".pipex-0"

/-- A session that has been opened there. -/
def obligingSession : obligingSessions.Opened :=
  ⟨AtomicFileSession.new ⟨2, 5⟩ AtomicFileSession.obligingPosix, rfl⟩

/-- The signal is aborted while a native write is under way. -/
def earlyAbort : List (Action obligingSessions) :=
  [.begin true (some obligingSession), .stream (.write [1]), .abort,
    .pipelineSettled (.error .abort), .stream (.writeReturned (some 1)), .stream .writeSettled,
    .sessionDisposed]

theorem cancelled_keeps_output_earlyAbort :
    let op := (machine obligingSessions .process false).run (start obligingSessions) earlyAbort
    op.progress = .settled (.error .abort) ∧ op.renames = 0 := by
  have hlegal : (machine obligingSessions .process false).Legal (start obligingSessions)
      earlyAbort :=
    ⟨rfl, ⟨_, rfl, ⟨rfl, rfl⟩, trivial⟩, trivial, ⟨rfl, rfl⟩,
      ⟨_, rfl, ⟨_, _, _, _, rfl, by decide⟩, trivial⟩, ⟨_, rfl, ⟨_, _, _, _, _, rfl⟩, trivial⟩,
      ⟨⟨_, rfl⟩, _, rfl, rfl, rfl, by decide⟩, trivial⟩
  have hundisturbed : (machine obligingSessions .process false).Along Undisturbed
      (start obligingSessions) earlyAbort := by
    refine ⟨?_, ?_, ?_, ?_, ?_, ?_, ?_, trivial⟩
    · exact fun h => h.elim nofun nofun
    · exact fun h => h.elim nofun nofun
    · exact fun _ hbound => absurd hbound (Nat.lt_irrefl 0)
    · exact fun h => h.elim nofun nofun
    · exact fun h => h.elim nofun nofun
    · exact fun h => h.elim nofun nofun
    · exact fun h => h.elim nofun nofun
  have hcancelled : ((machine obligingSessions .process false).run (start obligingSessions)
      earlyAbort).progress = .settled (.error .abort) := rfl
  exact ⟨hcancelled, cancelled_keeps_output _ _ _ hlegal hundisturbed hcancelled⟩

/-- The signal is aborted while the audit record is being written. -/
def lateAbort : List (Action obligingSessions) :=
  [.begin true (some obligingSession), .stream (.write [1]), .stream (.writeReturned (some 1)),
    .stream .writeSettled, .stream .callback, .pipelineSettled (.ok ()), .sessionDisposed, .abort]

/-- The call rejects, and its output is there. -/
theorem cancelled_keeps_output_fails :
    (machine obligingSessions .process false).Legal (start obligingSessions) lateAbort ∧
      let op := (machine obligingSessions .process false).run (start obligingSessions) lateAbort
      op.progress = .settled (.error .abort) ∧ op.renames = 1 := by
  refine ⟨?_, rfl, rfl⟩
  exact ⟨rfl, ⟨_, rfl, ⟨rfl, rfl⟩, trivial⟩, ⟨_, rfl, ⟨_, _, _, _, rfl, by decide⟩, trivial⟩,
    ⟨_, rfl, ⟨_, _, _, _, _, rfl⟩, trivial⟩, ⟨_, rfl, ⟨_, _, _, _, rfl⟩, trivial⟩,
    ⟨rfl, _, rfl, rfl⟩, ⟨⟨_, rfl⟩, _, rfl, rfl, rfl, by decide⟩, trivial, trivial⟩

/-! ## The other runs -/

/-- A call binds its output only behind its pipeline. -/
def Ordered (op : FileOperation kind) : Prop :=
  match op.progress with
  | .called => op.renames = 0
  | .running => op.renames = 0
  | .disposing (.error _) => op.renames = 0
  | _ => True

theorem Ordered.begin (h : Ordered op) (hcalled : op.progress = .called) (started : Bool)
    (opened : Option kind.Opened) : Ordered (op.begin method schema started opened) := by
  rw [Ordered, hcalled] at h
  obtain ⟨hunbound, hprogress⟩ := begin_cases method schema h started opened
  rw [Ordered]
  rcases hprogress with hrunning | ⟨cause, hsettled⟩
  · rw [hrunning]
    exact hunbound
  · rw [hsettled]
    trivial

theorem Ordered.pipelineSettled (h : Ordered op) (hrunning : op.progress = .running)
    (result : Except Cause Unit) : Ordered (op.pipelineSettled result) := by
  have hunbound : op.renames = 0 := by
    rw [Ordered, hrunning] at h
    exact h
  rcases pipelineSettled_cases hunbound result with heq | ⟨cause, hprogress, hnone⟩ | hbound
  · rw [heq]
    exact h
  · rw [Ordered, hprogress]
    exact hnone
  · rw [Ordered, hbound.1]
    trivial

/-- Behind its pipeline a call is in order, whatever comes. -/
theorem ordered_sessionDisposed {result : Except Cause Unit}
    (hdisposing : op.progress = .disposing result) : Ordered op.sessionDisposed := by
  unfold FileOperation.sessionDisposed
  simp only [hdisposing]
  match result with
  | .error cause => trivial
  | .ok () =>
    simp only
    split
    · trivial
    · trivial

theorem ordered_auditSettled (logged : Bool) : Ordered (op.auditSettled logged) := by
  unfold FileOperation.auditSettled
  split
  · trivial
  · split
    · trivial
    · trivial

theorem ordered_conclude : Ordered op.conclude := by
  unfold FileOperation.conclude
  split
  · trivial
  · trivial

/-- The signal plays no part in the order. -/
theorem Ordered.interrupt (h : Ordered op) (signal : Signal) :
    Ordered (interrupt { op with signal := signal }) := by
  unfold FileOperation.interrupt
  split
  · trivial
  · exact h

theorem ordered_step {action : Action kind} (h : Ordered op) (henabled : enabled op action) :
    Ordered (step method schema op action) := by
  cases action with
  | begin started opened => exact h.begin henabled started opened
  | stream event =>
    rw [Ordered, renames_stream henabled]
    exact h
  | pipelineSettled result => exact h.pipelineSettled henabled.1 result
  | sessionDisposed =>
    obtain ⟨⟨result, hdisposing⟩, -⟩ := henabled
    exact ordered_sessionDisposed hdisposing
  | auditSettled logged => exact ordered_auditSettled logged
  | conclude => exact ordered_conclude
  | abort => exact h.interrupt _
  | passDeadline => exact h
  | fireTimer => exact h.interrupt _

/-- A call that has bound its output and is to be cancelled. -/
structure Late (op : FileOperation kind) : Prop where
  bound : 0 < op.renames
  throws : op.signal.throws = true
  progress :
    match op.progress with
    | .disposing (.ok ()) => True
    | .auditing => True
    | .audited => True
    | .settled (.error _) => True
    | _ => False

theorem Late.interrupt (h : Late op) : Late op.interrupt := by
  unfold FileOperation.interrupt
  split
  · exact ⟨h.bound, h.throws, trivial⟩
  · exact h

theorem late_step {action : Action kind} (h : Late op) (henabled : enabled op action) :
    Late (step method schema op action) := by
  obtain ⟨signal, progress, session⟩ := op
  obtain ⟨hbound, hthrows, hprogress⟩ := h
  cases action with
  | begin started opened =>
    have hcalled : progress = .called := henabled
    subst hcalled
    cases hprogress
  | stream event => exact ⟨hbound.trans_eq (renames_stream henabled).symm, hthrows, hprogress⟩
  | pipelineSettled result =>
    have hrunning : progress = .running := henabled.1
    subst hrunning
    cases hprogress
  | sessionDisposed =>
    -- `awaitOperation` rejects at once
    obtain ⟨⟨result, hdisposing⟩, -⟩ := henabled
    subst hdisposing
    cases result with
    | error cause => cases hprogress
    | ok result =>
      have hsettled : step method schema (⟨signal, .disposing (.ok result), session⟩ :
          FileOperation kind) .sessionDisposed =
          ⟨signal, .settled (.error .abort), session.map kind.resume⟩ := if_pos hthrows
      rw [hsettled]
      exact ⟨hbound.trans_eq (renames_resume session).symm, hthrows, trivial⟩
  | auditSettled logged =>
    have hsettled : ∃ cause, step method schema (⟨signal, progress, session⟩ :
        FileOperation kind) (.auditSettled logged) =
        ⟨signal, .settled (.error cause), session⟩ := by
      cases logged with
      | false => exact ⟨.other, rfl⟩
      | true => exact ⟨.abort, if_pos hthrows⟩
    obtain ⟨cause, hsettled⟩ := hsettled
    rw [hsettled]
    exact ⟨hbound, hthrows, trivial⟩
  | conclude =>
    have hsettled : step method schema (⟨signal, progress, session⟩ : FileOperation kind)
        .conclude = ⟨signal, .settled (.error .abort), session⟩ := if_pos hthrows
    rw [hsettled]
    exact ⟨hbound, hthrows, trivial⟩
  | abort => exact Late.interrupt ⟨hbound, rfl, hprogress⟩
  | passDeadline => exact ⟨hbound, Bool.or_true _, hprogress⟩
  | fireTimer => exact Late.interrupt ⟨hbound, hthrows, hprogress⟩

/-- A call that has bound its output waits for its session or for the audit. -/
theorem Ordered.late (h : Ordered op) (hbound : 0 < op.renames)
    (hopen : ¬ ∃ result, op.progress = .settled result) {signal : Signal}
    (hthrows : signal.throws = true) : Late { op with signal := signal } := by
  refine ⟨hbound, hthrows, ?_⟩
  have hnone : op.renames ≠ 0 := Nat.pos_iff_ne_zero.mp hbound
  obtain ⟨signal', progress, session⟩ := op
  match progress with
  | .called => exact hnone h
  | .running => exact hnone h
  | .disposing (.error _) => exact hnone h
  | .disposing (.ok ()) => trivial
  | .auditing => trivial
  | .audited => trivial
  | .settled result => exact absurd ⟨result, rfl⟩ hopen

/-- Where the signal is aborted or late in between, the call rejects, if it settles at
    all, and its output is there. -/
theorem late_cancellation_rejects (kind : SessionKind) (method : FileMethod) (schema : Bool)
    {before after : List (Action kind)} {action : Action kind}
    (hlegal : (machine kind method schema).Legal (start kind) (before ++ action :: after))
    (hlate : ¬ Undisturbed ((machine kind method schema).run (start kind) before) action) :
    let op := (machine kind method schema).run (start kind) (before ++ action :: after)
    0 < op.renames ∧ ∀ result, op.progress = .settled result → ∃ cause, result = .error cause := by
  intro op
  obtain ⟨hbefore, henabled, hafter⟩ := Machine.along_append.mp hlegal
  have hordered : Ordered ((machine kind method schema).run (start kind) before) :=
    Machine.invariant (P := Ordered) (fun _ _ h henabled => ordered_step h henabled) rfl hbefore
  have hop : op = (machine kind method schema).run ((machine kind method schema).step
      ((machine kind method schema).run (start kind) before) action) after :=
    Machine.run_append ..
  rw [Undisturbed, not_forall] at hlate
  obtain ⟨hcancel, hlate⟩ := hlate
  rw [not_forall] at hlate
  obtain ⟨hbound, hopen⟩ := hlate
  -- the step that cancels it, and then the rest of the run
  have hfirst : Late ((machine kind method schema).step
      ((machine kind method schema).run (start kind) before) action) := by
    rcases hcancel with rfl | rfl
    · exact (hordered.late hbound hopen rfl).interrupt
    · exact hordered.late hbound hopen (Bool.or_true _)
  have hlast : Late op := by
    rw [hop]
    exact Machine.invariant (P := Late) (fun _ _ h henabled => late_step h henabled) hfirst hafter
  refine ⟨hlast.bound, ?_⟩
  intro result hsettled
  have hprogress := hlast.progress
  rw [hsettled] at hprogress
  cases result with
  | error cause => exact ⟨cause, rfl⟩
  | ok result => cases hprogress

end FileOperation
end PipeX
