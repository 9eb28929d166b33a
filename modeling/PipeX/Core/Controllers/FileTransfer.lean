/-
  PipeX.Core.Controllers.FileTransfer

  What the methods of `FileController` put behind the output name.

  A session moves chunks and knows nothing of plugins, and a pipeline knows nothing
  of files.  A `FileTransfer` joins them: its native reads return the contents of
  the input file in pieces of any length, and its pipeline resolves only when the
  source has ended and the destination has finished what came out of the last
  stage.  Signals, failures and the order of everything else are left open.

  * `bound_content` — at any moment, what is bound to the output name is nothing, or
    the whole of what the pipeline makes of the whole input.
  * `file_restored` — what `process` of one engine has put there, `reverse` of another
    one leads back.
  * `file_unpacked` — what `pack` has put there, `unpack` writes out in lines.
-/
import PipeX.Core.Controllers.FileCancellation
import PipeX.Core.Controllers.FilePackages
import PipeX.Core.Controllers.PathInversion

namespace PipeX

open Transition Chunked DataEngine

/-- One call of a method, with the system it is made on. -/
structure FileTransfer (Obj : Type) where
  code : EngineCode Obj
  engine : DataEngine
  streams : MsgpackStreams Obj
  stringify : Stringify Obj
  /-- what `Date.now()` returns -/
  ts : JsDouble
  requestId : RequestId
  method : FileMethod
  natives : Natives
  input : FilePath
  output : FilePath
  temporary : String
  /-- what the input file holds -/
  contents : Bytes

namespace FileTransfer

variable {Obj : Type} (t : FileTransfer Obj)

/-- The pipeline of the method. -/
def pipeline (source : List Bytes) : Except JsError (List Bytes) :=
  match t.method with
  | .process => t.code.runPipeline t.requestId false source t.engine
  | .reverse => t.code.runPipeline t.requestId true source t.engine
  | .pack => t.code.filePackPipeline t.streams t.engine.limits t.ts source
  | .unpack => t.code.fileUnpackPipeline t.streams t.stringify t.engine.limits source

abbrev sessions : SessionKind := posixSessions t.natives t.output t.temporary

/-! ## The two files -/

/-- A native read returns bytes that follow `offset`, and none only at the end. -/
def IsRead (offset : Nat) (bytes : Bytes) : Prop :=
  bytes <+: t.contents.drop offset ∧ (bytes = [] → t.contents.length ≤ offset)

/-- `runPipeline` has resolved: the source has been pushed its `null`, and the destination
    has been handed what comes out of the last stage. -/
def Piped (s : AtomicFileSession) : Prop :=
  [] ∈ s.pushed ∧ ∃ delivered, t.pipeline s.pushed = .ok delivered ∧ s.chunks = handOver delivered

/-- The steps of a call on this system. -/
def Performs (op : FileOperation t.sessions) : FileOperation.Action t.sessions → Prop
  | .begin _ (some session) => ∃ handles posix,
      (Posix.openPosix t.natives t.input t.output t.temporary).run Posix.start =
        .ok handles posix ∧ session.val = .new handles posix
  -- nobody else writes the file, and the source goes on where the last read ended
  | .stream (.readReturned (some bytes)) =>
      ∀ s, op.session = some s → t.IsRead s.pushed.flatten.length bytes
  | .pipelineSettled (.ok ()) => ∀ s, op.session = some s → t.Piped s
  | _ => True

def machine : Machine (FileOperation t.sessions) (FileOperation.Action t.sessions) :=
  (FileOperation.machine t.sessions t.method t.code.schema.isSome).restrict t.Performs

/-- The call behind these actions. -/
def call (actions : List (FileOperation.Action t.sessions)) : FileOperation t.sessions :=
  t.machine.run (FileOperation.start t.sessions) actions

/-! ## The source -/

/-- The source has been pushed the beginning of the input file, all of it in front of
    `null`, and goes on behind it. -/
structure Reads (s : AtomicFileSession) : Prop where
  front : s.pushed.flatten <+: t.contents
  ended : [] ∈ s.pushed → s.pushed.flatten = t.contents
  next : ∀ task bytes, s.reading = some ⟨task, some (.ok bytes)⟩ →
    t.IsRead s.pushed.flatten.length bytes

variable {t}

/-- Another piece. -/
theorem Reads.push {s : AtomicFileSession} (h : t.Reads s) {bytes : Bytes}
    (hread : t.IsRead s.pushed.flatten.length bytes) :
    (s.pushed ++ [bytes]).flatten <+: t.contents ∧
      ([] ∈ s.pushed ++ [bytes] → (s.pushed ++ [bytes]).flatten = t.contents) := by
  obtain ⟨hfollows, hend⟩ := hread
  have hsplit : s.pushed.flatten ++ t.contents.drop s.pushed.flatten.length = t.contents := by
    conv_lhs => rw [List.prefix_iff_eq_take.mp h.front]
    rw [List.length_take, Nat.min_eq_left h.front.length_le, List.take_append_drop]
  rw [List.flatten_append, List.flatten_singleton]
  constructor
  · rw [← hsplit]
    exact (List.prefix_append_right_inj _).mpr hfollows
  · intro hnull
    rcases List.mem_append.mp hnull with hbefore | hlast
    -- behind the end there is nothing left to read
    · have hall := h.ended hbefore
      rw [hall, List.drop_length, List.prefix_nil] at hfollows
      rw [hfollows, List.append_nil, hall]
    · have hempty := (List.mem_singleton.mp hlast).symm
      rw [hempty, List.append_nil]
      exact h.front.eq_of_length (Nat.le_antisymm h.front.length_le (hend hempty))

/-- A session with the same source. -/
theorem Reads.of_same {s s' : AtomicFileSession} (h : t.Reads s) (hpushed : s'.pushed = s.pushed)
    (hreading : s'.reading = s.reading) : t.Reads s' := by
  refine ⟨hpushed ▸ h.front, hpushed ▸ h.ended, ?_⟩
  rw [hpushed, hreading]
  exact h.next

theorem writeLoop_source (s : AtomicFileSession) (chunk : Bytes) (offset work : Nat) :
    (s.writeLoop chunk offset work).pushed = s.pushed ∧
      (s.writeLoop chunk offset work).reading = s.reading := by
  unfold AtomicFileSession.writeLoop
  split
  · split
    · exact ⟨rfl, rfl⟩
    · exact ⟨rfl, rfl⟩
  · exact ⟨rfl, rfl⟩

/-- What happens to the streams leaves the source in order. -/
theorem Reads.stream {s : AtomicFileSession} {event : AtomicFileSession.Action} (h : t.Reads s)
    (hstream : event.IsStream)
    (hread : ∀ bytes, event = .readReturned (some bytes) →
      t.IsRead s.pushed.flatten.length bytes) :
    t.Reads (AtomicFileSession.step t.natives t.output t.temporary s event) := by
  cases event with
  | read =>
    show t.Reads s.read
    unfold AtomicFileSession.read
    split
    · exact h
    · exact ⟨h.front, h.ended, nofun⟩
  | readReturned data =>
    show t.Reads (s.readReturned data)
    unfold AtomicFileSession.readReturned
    split
    · refine ⟨h.front, h.ended, fun task bytes hreading => ?_⟩
      cases data with
      | none => cases hreading
      | some data =>
        cases hreading
        exact hread _ rfl
    · exact h
  | readSettled =>
    show t.Reads s.readSettled
    unfold AtomicFileSession.readSettled
    split
    · rename_i task result hreading
      cases result with
      | error e => exact ⟨h.front, h.ended, nofun⟩
      | ok bytes =>
        simp only
        split
        -- a source that is destroyed is pushed nothing any more
        · exact ⟨h.front, h.ended, nofun⟩
        · obtain ⟨hfront, hended⟩ := h.push (h.next _ _ hreading)
          exact ⟨hfront, hended, nofun⟩
    · exact h
  -- the destination leaves the source alone
  | write chunk =>
    obtain ⟨hpushed, hreading⟩ := writeLoop_source
      { s with pending := s.pending.track, chunks := s.chunks ++ [chunk] } chunk 0 s.pending.next
    exact h.of_same hpushed hreading
  | writeReturned count =>
    show t.Reads (s.writeReturned count)
    unfold AtomicFileSession.writeReturned
    split
    · exact h.of_same rfl rfl
    · exact h
  | writeSettled =>
    show t.Reads s.writeSettled
    unfold AtomicFileSession.writeSettled
    simp only
    split
    · split
      · exact h.of_same rfl rfl
      · exact h.of_same (writeLoop_source _ _ _ _).1 (writeLoop_source _ _ _ _).2
      · exact h.of_same rfl rfl
    · exact h
  | callback =>
    show t.Reads s.callback
    unfold AtomicFileSession.callback
    split
    · exact h.of_same rfl rfl
    · exact h
  | destroySource => exact h.of_same rfl rfl
  | destroyDestination => exact h.of_same rfl rfl
  | commit => exact absurd hstream id
  | dispose => exact absurd hstream id
  | disposeSettled => exact absurd hstream id

/-! ## The destination -/

/-- Nothing more can be written. -/
structure Closed (s : AtomicFileSession) : Prop where
  idle : s.writing = none
  destroyed : s.destinationDestroyed = true

theorem Closed.stream {s : AtomicFileSession} {event : AtomicFileSession.Action} (h : Closed s)
    (henabled : s.enabled event) (hstream : event.IsStream) :
    Closed (AtomicFileSession.step t.natives t.output t.temporary s event) ∧
      (AtomicFileSession.step t.natives t.output t.temporary s event).content = s.content := by
  have hidle : ∀ {writing}, s.writing ≠ some writing := by
    intro writing hwriting
    rw [h.idle] at hwriting
    cases hwriting
  cases event with
  | read =>
    simp only [AtomicFileSession.step]
    unfold AtomicFileSession.read
    split
    · exact ⟨h, rfl⟩
    · exact ⟨⟨h.idle, h.destroyed⟩, rfl⟩
  | readReturned data =>
    simp only [AtomicFileSession.step]
    unfold AtomicFileSession.readReturned
    split
    · exact ⟨⟨h.idle, h.destroyed⟩, rfl⟩
    · exact ⟨h, rfl⟩
  | readSettled =>
    simp only [AtomicFileSession.step]
    unfold AtomicFileSession.readSettled
    split
    · simp only
      split
      · split
        · exact ⟨⟨h.idle, h.destroyed⟩, rfl⟩
        · exact ⟨⟨h.idle, h.destroyed⟩, rfl⟩
      · exact ⟨⟨h.idle, h.destroyed⟩, rfl⟩
    · exact ⟨h, rfl⟩
  | write chunk =>
    have hopen : s.destinationDestroyed = false := henabled.1
    rw [h.destroyed] at hopen
    cases hopen
  | writeReturned count =>
    obtain ⟨_, _, _, _, hwriting, -⟩ := henabled
    exact absurd hwriting hidle
  | writeSettled =>
    obtain ⟨_, _, _, _, _, hwriting⟩ := henabled
    exact absurd hwriting hidle
  | callback =>
    obtain ⟨_, _, _, _, hwriting⟩ := henabled
    exact absurd hwriting hidle
  | destroySource => exact ⟨⟨h.idle, h.destroyed⟩, rfl⟩
  | destroyDestination => exact ⟨⟨h.idle, rfl⟩, rfl⟩
  | commit => exact absurd hstream id
  | dispose => exact absurd hstream id
  | disposeSettled => exact absurd hstream id

variable (t)

/-- The file holds the whole of what the pipeline makes of the whole input. -/
def Delivers (content : Bytes) : Prop :=
  ∃ source delivered, source.flatten = t.contents ∧ t.pipeline source = .ok delivered ∧
    content = delivered.flatten

/-! ## Sessions -/

/-- What holds of the session of a call at any time. -/
structure Transferring (s : AtomicFileSession) : Prop where
  reads : t.Reads s
  accounted : s.Accounted
  bound : 0 < s.posix.entries.renames → Closed s ∧ t.Delivers s.content

variable {t}

theorem transferring_new {handles : Posix.Handles} {posix : Posix}
    (h : posix.entries.renames = 0) : t.Transferring (.new handles posix) where
  reads := ⟨List.nil_prefix, nofun, nofun⟩
  accounted := AtomicFileSession.accounted_new handles posix
  bound hbound := absurd h (Nat.pos_iff_ne_zero.mp hbound)

theorem Transferring.stream {s : AtomicFileSession} {event : AtomicFileSession.Action}
    (h : t.Transferring s) (henabled : s.enabled event) (hstream : event.IsStream)
    (hread : ∀ bytes, event = .readReturned (some bytes) →
      t.IsRead s.pushed.flatten.length bytes) :
    t.Transferring (AtomicFileSession.step t.natives t.output t.temporary s event) where
  reads := h.reads.stream hstream hread
  accounted := AtomicFileSession.accounted_step h.accounted henabled
  bound hbound := by
    have hrenames := (posixSessions t.natives t.output t.temporary).streams_renames s event
      ⟨henabled, hstream⟩
    obtain ⟨hclosed, hcontent⟩ := h.bound (hbound.trans_eq hrenames)
    obtain ⟨hclosed', hsame⟩ := hclosed.stream (t := t) henabled hstream
    exact ⟨hclosed', hsame ▸ hcontent⟩

/-- A session that still has its files and what was bound. -/
theorem Transferring.of_same {s s' : AtomicFileSession} (h : t.Transferring s)
    (hpushed : s'.pushed = s.pushed) (hreading : s'.reading = s.reading)
    (haccounted : s'.Accounted) (hwriting : s'.writing = s.writing)
    (hdestroyed : s.destinationDestroyed = true → s'.destinationDestroyed = true)
    (hcontent : s'.content = s.content)
    (hrenames : s'.posix.entries.renames = s.posix.entries.renames) : t.Transferring s' where
  reads := h.reads.of_same hpushed hreading
  accounted := haccounted
  bound hbound := by
    obtain ⟨hclosed, hdelivers⟩ := h.bound (hbound.trans_eq hrenames)
    exact ⟨⟨hwriting.trans hclosed.idle, hdestroyed hclosed.destroyed⟩, hcontent ▸ hdelivers⟩

theorem Transferring.dispose {s : AtomicFileSession} (h : t.Transferring s) :
    t.Transferring s.dispose := by
  unfold AtomicFileSession.dispose
  split
  · exact h
  · exact h.of_same rfl rfl ⟨h.accounted.content, h.accounted.count, h.accounted.finished⟩ rfl
      (fun _ => rfl) rfl rfl

theorem Transferring.resume {s : AtomicFileSession} (h : t.Transferring s) :
    t.Transferring (s.disposeSettled t.natives t.temporary) :=
  h.of_same rfl rfl ⟨h.accounted.content, h.accounted.count, h.accounted.finished⟩ rfl id rfl
    (AtomicFileSession.cleanup_renames t.natives t.temporary s.posix)

/-- No write is under way when every write has completed. -/
theorem idle_of_completed {s : AtomicFileSession} (h : s.Accounted) (hwritten : s.WritesCompleted) :
    s.writing = none := by
  have hcount := h.count
  rw [hwritten, List.length_map] at hcount
  cases hwriting : s.writing with
  | none => rfl
  | some writing =>
    rw [hwriting, Option.toList_some, List.length_singleton] at hcount
    omega

/-- A `commit` that binds the output name is one of a session that is not disposed. -/
theorem disposed_of_commit {s : AtomicFileSession}
    (hcommit : s.commitOutcome t.natives t.output = .ok ()) : s.disposed = false := by
  rw [Bool.eq_false_iff]
  intro hdisposed
  have hrenames := AtomicFileSession.commit_renames t.natives t.output s
  rw [AtomicFileSession.commit_disposed hdisposed, if_pos hcommit] at hrenames
  omega

/-- Behind the pipeline, `commit` and `dispose` follow at once. -/
theorem Transferring.commit {s : AtomicFileSession} (h : t.Transferring s) (hpiped : t.Piped s)
    (hwritten : s.WritesCompleted) : t.Transferring (s.commit t.natives t.output).dispose := by
  have heq := AtomicFileSession.commit_eq t.natives t.output s
  have hrenames := AtomicFileSession.commit_renames t.natives t.output s
  generalize s.commit t.natives t.output = s' at heq hrenames ⊢
  have haccounted : s'.Accounted := by
    rw [heq]
    exact ⟨h.accounted.content, h.accounted.count, h.accounted.finished⟩
  by_cases hcommit : s.commitOutcome t.natives t.output = .ok ()
  · have hopen : s'.disposed = false :=
      (congrArg (·.disposed) heq).trans (disposed_of_commit hcommit)
    have hdispose : s'.dispose = { s' with
        disposed := true, sourceDestroyed := true, destinationDestroyed := true,
        awaited := s'.pending.pending } := if_neg (by simp [hopen])
    obtain ⟨hended, delivered, hdelivers, hchunks⟩ := hpiped
    rw [hdispose]
    refine ⟨?_, ⟨haccounted.content, haccounted.count, haccounted.finished⟩, fun _ => ?_⟩
    · exact h.reads.of_same (congrArg (·.pushed) heq) (congrArg (·.reading) heq)
    · refine ⟨⟨?_, rfl⟩, s.pushed, delivered, h.reads.ended hended, hdelivers, ?_⟩
      · exact (congrArg (·.writing) heq).trans (idle_of_completed h.accounted hwritten)
      · calc s'.content = s.content := congrArg (·.content) heq
          _ = s.chunks.flatten := h.accounted.content_eq hwritten
          _ = delivered.flatten := by rw [hchunks, flatten_handOver]
  · rw [if_neg hcommit] at hrenames
    refine Transferring.dispose (h.of_same ?_ ?_ haccounted ?_ ?_ ?_ hrenames)
    · exact congrArg (·.pushed) heq
    · exact congrArg (·.reading) heq
    · exact congrArg (·.writing) heq
    · intro hdestroyed
      rw [heq]
      exact hdestroyed
    · exact congrArg (·.content) heq

end FileTransfer

/-! ## Calls -/

namespace FileOperation

variable {kind : SessionKind} {op : FileOperation kind} {method : FileMethod} {schema : Bool}

/-- A call has bound its output before it resolves. -/
def Completes (op : FileOperation kind) : Prop :=
  match op.progress with
  | .called => op.renames = 0
  | .running => op.renames = 0
  | .disposing (.ok ()) => 0 < op.renames
  | .auditing => 0 < op.renames
  | .audited => 0 < op.renames
  | .settled (.ok ()) => 0 < op.renames
  | _ => True

theorem Completes.begin (h : Completes op) (hcalled : op.progress = .called) (started : Bool)
    (opened : Option kind.Opened) : Completes (op.begin method schema started opened) := by
  rw [Completes, hcalled] at h
  obtain ⟨hunbound, hprogress⟩ := begin_cases method schema h started opened
  rw [Completes]
  rcases hprogress with hrunning | ⟨cause, hsettled⟩
  · rw [hrunning]
    exact hunbound
  · rw [hsettled]
    trivial

theorem Completes.pipelineSettled (h : Completes op) (hrunning : op.progress = .running)
    (result : Except Cause Unit) : Completes (op.pipelineSettled result) := by
  have hunbound : op.renames = 0 := by
    rw [Completes, hrunning] at h
    exact h
  rcases pipelineSettled_cases hunbound result with heq | ⟨cause, hprogress, -⟩ |
    ⟨hprogress, hbound, -⟩
  · rw [heq]
    exact h
  · rw [Completes, hprogress]
    trivial
  · rw [Completes, hprogress]
    exact hbound

theorem Completes.sessionDisposed (h : Completes op) {result : Except Cause Unit}
    (hdisposing : op.progress = .disposing result) : Completes op.sessionDisposed := by
  unfold FileOperation.sessionDisposed
  simp only [hdisposing]
  rw [Completes, hdisposing] at h
  match result with
  | .error cause => trivial
  | .ok () =>
    simp only
    split
    · trivial
    · exact h.trans_eq (renames_resume _).symm

theorem Completes.auditSettled (h : Completes op) (hauditing : op.progress = .auditing)
    (logged : Bool) : Completes (op.auditSettled logged) := by
  rw [Completes, hauditing] at h
  unfold FileOperation.auditSettled
  split
  · trivial
  · split
    · trivial
    · exact h

theorem Completes.conclude (h : Completes op) (haudited : op.progress = .audited) :
    Completes op.conclude := by
  rw [Completes, haudited] at h
  unfold FileOperation.conclude
  split
  · trivial
  · exact h

/-- The signal plays no part in it. -/
theorem Completes.interrupt (h : Completes op) (signal : Signal) :
    Completes (interrupt { op with signal := signal }) := by
  unfold FileOperation.interrupt
  split
  · trivial
  · exact h

theorem completes_step {action : Action kind} (h : Completes op) (henabled : enabled op action) :
    Completes (step method schema op action) := by
  cases action with
  | begin started opened => exact h.begin henabled started opened
  | stream event =>
    rw [Completes, renames_stream henabled]
    exact h
  | pipelineSettled result => exact h.pipelineSettled henabled.1 result
  | sessionDisposed =>
    obtain ⟨⟨result, hdisposing⟩, -⟩ := henabled
    exact h.sessionDisposed hdisposing
  | auditSettled logged => exact h.auditSettled henabled logged
  | conclude => exact h.conclude henabled
  | abort => exact h.interrupt _
  | passDeadline => exact h
  | fireTimer => exact h.interrupt _

end FileOperation

/-! ## Sessions where every native call succeeds -/

namespace AtomicFileSession

/-- Between two calls of the streams. -/
def idle (next : Nat) (settled : List Nat) (pushed chunks : List Bytes) : AtomicFileSession :=
  { AtomicFileSession.new ⟨2, 5⟩ obligingPosix with
    pending := ⟨next, [], settled⟩
    pushed := pushed
    chunks := chunks
    callbacks := chunks.map fun _ => .ok ()
    content := chunks.flatten }

variable (next : Nat) (settled : List Nat) (pushed chunks : List Bytes)

theorem idle_read (piece : Bytes) :
    ((idle next settled pushed chunks).read.readReturned (some piece)).readSettled =
      idle (next + 1) (next :: settled) (pushed ++ [piece]) chunks := by
  simp [idle, new, read, readReturned, readSettled, Tracker.new, Tracker.track, Tracker.settle,
    Tracker.forget]

/-- One native write is enough for a chunk. -/
theorem idle_written (byte : UInt8) (rest : Bytes) :
    (((idle next settled pushed chunks).write (byte :: rest)).writeReturned
      (some (byte :: rest).length)).writeSettled =
        { idle (next + 2) (next :: (next + 1) :: settled) pushed (chunks ++ [byte :: rest]) with
          pending := ⟨next + 2, [next], next :: (next + 1) :: settled⟩
          writing := some ⟨byte :: rest, (byte :: rest).length, next, .finished (.ok ())⟩
          callbacks := chunks.map fun _ => .ok () } := by
  simp [idle, new, write, writeLoop, writeReturned, writeSettled, finish, Tracker.new,
    Tracker.track, Tracker.settle, Tracker.forget]

theorem idle_write (byte : UInt8) (rest : Bytes) :
    (((idle next settled pushed chunks).write (byte :: rest)).writeReturned
      (some (byte :: rest).length)).writeSettled.callback =
        idle (next + 2) (next :: (next + 1) :: settled) pushed (chunks ++ [byte :: rest]) := by
  rw [idle_written]
  simp [idle, new, callback, Tracker.forget, Except.isOk, Except.toBool]

end AtomicFileSession

namespace FileTransfer

open EngineCode FileOperation

variable {Obj : Type} {t : FileTransfer Obj}

/-- The session of a call is that of a transfer. -/
abbrev Carries (t : FileTransfer Obj) (op : FileOperation t.sessions) : Prop :=
  ∀ s, op.session = some s → t.Transferring s

section Carries

variable {op : FileOperation t.sessions}

theorem Carries.begin (h : t.Carries op) {started : Bool} {opened : Option t.sessions.Opened}
    (hperforms : t.Performs op (.begin started opened)) :
    t.Carries (op.begin t.method t.code.schema.isSome started opened) := by
  unfold FileOperation.begin
  split
  · exact h
  split
  · exact h
  split
  · exact h
  cases opened with
  | none => exact h
  | some session =>
    intro s hs
    cases hs
    obtain ⟨handles, posix, -, hnew⟩ := hperforms
    have hunbound := session.property
    rw [hnew] at hunbound ⊢
    exact transferring_new hunbound

theorem Carries.stream (h : t.Carries op) {event : t.sessions.Event}
    (henabled : FileOperation.enabled op (.stream event))
    (hperforms : t.Performs op (.stream event)) :
    t.Carries (FileOperation.step t.method t.code.schema.isSome op (.stream event)) := by
  intro s hs
  obtain ⟨s', hsession, hevent, hstream⟩ := henabled
  have hstep : (AtomicFileSession.machine t.natives t.output t.temporary).step s' event = s := by
    have hs : op.session.map _ = some s := hs
    rw [hsession] at hs
    exact Option.some.inj hs
  rw [← hstep]
  refine (h s' hsession).stream hevent hstream fun bytes hread => ?_
  subst hread
  exact hperforms s' hsession

theorem Carries.pipelineSettled (h : t.Carries op) {result : Except Cause Unit}
    (henabled : FileOperation.enabled op (.pipelineSettled result))
    (hperforms : t.Performs op (.pipelineSettled result)) :
    t.Carries (op.pipelineSettled result) := by
  unfold FileOperation.pipelineSettled
  cases hsession : op.session with
  | none => exact h
  | some session =>
    have htransferring := h session hsession
    cases result with
    | error cause =>
      intro s hs
      cases hs
      exact htransferring.dispose
    | ok r =>
      simp only
      split
      · intro s hs
        cases hs
        exact htransferring.dispose
      · obtain ⟨-, s', hsession', hwritten⟩ := henabled
        rw [hsession] at hsession'
        cases hsession'
        have hcommitted := htransferring.commit (hperforms session hsession) hwritten
        intro s hs
        have hs : s = (session.commit t.natives t.output).dispose := by
          -- whatever `commit` has come to
          split at hs
          · rename_i hcommit
            rw [show session.commit t.natives t.output = _ from congrArg Prod.snd hcommit]
            exact (Option.some.inj hs).symm
          · rename_i hcommit
            rw [show session.commit t.natives t.output = _ from congrArg Prod.snd hcommit]
            exact (Option.some.inj hs).symm
        rw [hs]
        exact hcommitted

theorem Carries.sessionDisposed (h : t.Carries op) : t.Carries op.sessionDisposed := by
  have hresumed : ∀ s, op.session.map t.sessions.resume = some s → t.Transferring s := by
    intro s hs
    obtain ⟨session, hsession, rfl⟩ := Option.map_eq_some_iff.mp hs
    exact (h session hsession).resume
  unfold FileOperation.sessionDisposed
  simp only
  split
  · exact hresumed
  · split
    · exact hresumed
    · exact hresumed
  · exact hresumed

theorem Carries.auditSettled (h : t.Carries op) (logged : Bool) :
    t.Carries (op.auditSettled logged) := by
  unfold FileOperation.auditSettled
  split
  · exact h
  · split
    · exact h
    · exact h

theorem Carries.conclude (h : t.Carries op) : t.Carries op.conclude := by
  unfold FileOperation.conclude
  split
  · exact h
  · exact h

theorem Carries.interrupt (h : t.Carries op) (signal : Signal) :
    t.Carries (FileOperation.interrupt { op with signal := signal }) := by
  unfold FileOperation.interrupt
  split
  · exact h
  · exact h

end Carries

theorem carries_step {op : FileOperation t.sessions} {action : FileOperation.Action t.sessions}
    (h : t.Carries op) (henabled : t.machine.enabled op action) :
    t.Carries (t.machine.step op action) := by
  obtain ⟨henabled, hperforms⟩ := henabled
  cases action with
  | begin started opened => exact h.begin hperforms
  | stream event => exact h.stream henabled hperforms
  | pipelineSettled result => exact h.pipelineSettled henabled hperforms
  | sessionDisposed => exact h.sessionDisposed
  | auditSettled logged => exact h.auditSettled logged
  | conclude => exact h.conclude
  | abort => exact h.interrupt _
  | passDeadline => exact h
  | fireTimer => exact h.interrupt _

/-- What holds of a call at any time. -/
structure Underway (t : FileTransfer Obj) (op : FileOperation t.sessions) : Prop where
  session : t.Carries op
  completes : op.Completes

theorem underway_step {op : FileOperation t.sessions} {action : FileOperation.Action t.sessions}
    (h : t.Underway op) (henabled : t.machine.enabled op action) :
    t.Underway (t.machine.step op action) where
  session := carries_step h.session henabled
  completes := FileOperation.completes_step h.completes henabled.1

/-- What is bound at any moment is complete. -/
theorem Underway.delivers {op : FileOperation t.sessions} (h : t.Underway op)
    (hbound : 0 < op.renames) : ∃ s, op.session = some s ∧ t.Delivers s.content := by
  cases hsession : op.session with
  | none =>
    rw [FileOperation.renames, hsession] at hbound
    cases hbound
  | some s =>
    rw [FileOperation.renames_eq hsession] at hbound
    exact ⟨s, rfl, ((h.session s hsession).bound hbound).2⟩

/-- A call that resolved has bound its output. -/
theorem Underway.bound_of_resolved {op : FileOperation t.sessions} (h : t.Underway op)
    (hresolved : op.progress = .settled (.ok ())) : 0 < op.renames := by
  have hcompletes := h.completes
  rw [FileOperation.Completes, hresolved] at hcompletes
  exact hcompletes

theorem underway_start (t : FileTransfer Obj) : t.Underway (FileOperation.start t.sessions) where
  session s hs := by cases hs
  completes := rfl

theorem underway_run (t : FileTransfer Obj) {actions : List (FileOperation.Action t.sessions)}
    (hlegal : t.machine.Legal (FileOperation.start t.sessions) actions) :
    t.Underway (t.call actions) := by
  refine Machine.invariant (P := t.Underway) ?_ t.underway_start hlegal
  intro op action h henabled
  exact underway_step h henabled

variable (t)

/-- The same call where every native call succeeds. -/
abbrev obliged : FileTransfer Obj :=
  { t with
    natives := AtomicFileSession.obligingNatives
    input := ⟨"/", [], "in"⟩
    output := ⟨"/", [], "out"⟩
    temporary := ".pipex-0" }

/-- Its pipeline is under way. -/
def piping (next : Nat) (settled : List Nat) (pushed chunks : List Bytes) :
    FileOperation obligingSessions :=
  ⟨⟨false, false, false⟩, .running, some (.idle next settled pushed chunks)⟩

def readRun (piece : Bytes) : List (FileOperation.Action obligingSessions) :=
  [.stream .read, .stream (.readReturned (some piece)), .stream .readSettled]

def writeRun (chunk : Bytes) : List (FileOperation.Action obligingSessions) :=
  [.stream (.write chunk), .stream (.writeReturned (some chunk.length)), .stream .writeSettled,
    .stream .callback]

def settleRun : List (FileOperation.Action obligingSessions) :=
  [.pipelineSettled (.ok ()), .sessionDisposed, .auditSettled true, .conclude]

/-- The file is read in these pieces, and these chunks are written. -/
def completingRun (pieces chunks : List Bytes) : List (FileOperation.Action obligingSessions) :=
  .begin true (some obligingSession) ::
    ((pieces ++ [[]]).flatMap readRun ++ (chunks.flatMap writeRun ++ settleRun))

variable {t} (next : Nat) (settled : List Nat) {pushed : List Bytes} (chunks : List Bytes)

theorem readRun_leads {piece : Bytes} (hread : t.obliged.IsRead pushed.flatten.length piece)
    (hle : piece.length ≤ defaultHighWater) :
    t.obliged.machine.Leads (piping next settled pushed chunks) (readRun piece)
      (piping (next + 1) (next :: settled) (pushed ++ [piece]) chunks) := by
  refine ⟨⟨⟨⟨_, rfl, rfl, trivial⟩, trivial⟩, ⟨⟨_, rfl, ⟨⟨_, rfl⟩, hle⟩, trivial⟩, ?_⟩,
    ⟨⟨_, rfl, ⟨_, _, rfl⟩, trivial⟩, trivial⟩, trivial⟩, ?_⟩
  · rintro _ ⟨⟩
    exact hread
  · exact congrArg (fun session => (⟨_, _, some session⟩ : FileOperation obligingSessions))
      (AtomicFileSession.idle_read next settled pushed chunks piece)

theorem writeRun_leads (pushed : List Bytes) (byte : UInt8) (rest : Bytes) :
    t.obliged.machine.Leads (piping next settled pushed chunks) (writeRun (byte :: rest))
      (piping (next + 2) (next :: (next + 1) :: settled) pushed (chunks ++ [byte :: rest])) := by
  have hwritten := congrArg (·.writing)
    (AtomicFileSession.idle_written next settled pushed chunks byte rest)
  refine ⟨⟨⟨⟨_, rfl, ⟨rfl, rfl⟩, trivial⟩, trivial⟩,
    ⟨⟨_, rfl, ⟨_, _, _, _, rfl, Nat.le_refl _⟩, trivial⟩, trivial⟩,
    ⟨⟨_, rfl, ⟨_, _, _, _, _, rfl⟩, trivial⟩, trivial⟩,
    ⟨⟨_, rfl, ⟨_, _, _, _, hwritten⟩, trivial⟩, trivial⟩, trivial⟩, ?_⟩
  exact congrArg (fun session => (⟨_, _, some session⟩ : FileOperation obligingSessions))
    (AtomicFileSession.idle_write next settled pushed chunks byte rest)

/-- The whole file is read. -/
theorem readRuns_leads {pieces : List Bytes}
    (hcontents : pushed.flatten ++ pieces.flatten = t.contents)
    (hpieces : ∀ piece ∈ pieces, piece ≠ [] ∧ piece.length ≤ defaultHighWater) :
    ∃ next' settled', t.obliged.machine.Leads (piping next settled pushed chunks)
      ((pieces ++ [[]]).flatMap readRun)
      (piping next' settled' (pushed ++ (pieces ++ [[]])) chunks) := by
  induction pieces generalizing next settled pushed with
  | nil =>
    have hend : t.obliged.IsRead pushed.flatten.length [] := by
      refine ⟨List.nil_prefix, fun _ => ?_⟩
      rw [← show _ = t.contents from hcontents, List.flatten_nil, List.append_nil]
    exact ⟨_, _, readRun_leads next settled chunks hend (Nat.zero_le _)⟩
  | cons piece pieces ih =>
    obtain ⟨hne, hle⟩ := hpieces piece (List.mem_cons_self ..)
    have hfollows : t.obliged.IsRead pushed.flatten.length piece := by
      refine ⟨?_, fun hempty => absurd hempty hne⟩
      rw [← show _ = t.contents from hcontents, List.drop_left]
      exact List.prefix_append _ _
    have hfirst := readRun_leads next settled chunks hfollows hle
    have hrest : (pushed ++ [piece]).flatten ++ pieces.flatten = t.contents := by
      simpa using hcontents
    obtain ⟨next', settled', hrest⟩ := ih (next + 1) (next :: settled) hrest
      fun piece hpiece => hpieces piece (List.mem_cons_of_mem _ hpiece)
    refine ⟨next', settled', ?_⟩
    rw [List.append_assoc, List.singleton_append] at hrest
    exact hfirst.append hrest

/-- The whole of what is delivered is written. -/
theorem writeRuns_leads (pushed : List Bytes) {delivered : List Bytes}
    (hdelivered : ∀ chunk ∈ delivered, chunk ≠ []) :
    ∃ next' settled', t.obliged.machine.Leads (piping next settled pushed chunks)
      (delivered.flatMap writeRun) (piping next' settled' pushed (chunks ++ delivered)) := by
  induction delivered generalizing next settled chunks with
  | nil => exact ⟨next, settled, trivial, by rw [List.append_nil]; rfl⟩
  | cons chunk delivered ih =>
    obtain ⟨byte, rest, rfl⟩ :=
      List.exists_cons_of_ne_nil (hdelivered chunk (List.mem_cons_self ..))
    have hfirst := writeRun_leads (t := t) next settled chunks pushed byte rest
    obtain ⟨next', settled', hrest⟩ := ih (next + 2) (next :: (next + 1) :: settled)
      (chunks ++ [byte :: rest]) fun chunk hchunk => hdelivered chunk (List.mem_cons_of_mem _ hchunk)
    refine ⟨next', settled', ?_⟩
    rw [List.append_assoc, List.singleton_append] at hrest
    exact hfirst.append hrest

theorem settleRun_leads {delivered : List Bytes} (hdelivered : t.pipeline pushed = .ok delivered)
    (hended : [] ∈ pushed) :
    ∃ op, t.obliged.machine.Leads (piping next settled pushed (handOver delivered)) settleRun op ∧
      op.progress = .settled (.ok ()) ∧ op.renames = 1 ∧
      ∃ s, op.session = some s ∧ s.content = (handOver delivered).flatten := by
  refine ⟨_, ⟨⟨⟨⟨rfl, _, rfl, rfl⟩, ?_⟩,
    ⟨⟨⟨_, rfl⟩, _, rfl, rfl, rfl, fun _ hawaited => nomatch hawaited⟩, trivial⟩,
    ⟨rfl, trivial⟩, ⟨rfl, trivial⟩, trivial⟩, rfl⟩, rfl, rfl, _, rfl, rfl⟩
  rintro _ ⟨⟩
  exact ⟨hended, delivered, hdelivered, rfl⟩

/-- Whatever the pipeline can deliver, some call delivers. -/
theorem completingRun_completes (t : FileTransfer Obj) {pieces delivered : List Bytes}
    (hschema : (t.code.schema.isSome && t.method.refusesSchema) = false)
    (hpieces : ∀ piece ∈ pieces, piece ≠ [] ∧ piece.length ≤ defaultHighWater)
    (hcontents : pieces.flatten = t.contents)
    (hdelivered : t.pipeline (pieces ++ [[]]) = .ok delivered) :
    t.obliged.machine.Legal (FileOperation.start _) (completingRun pieces (handOver delivered)) ∧
    (t.obliged.call (completingRun pieces (handOver delivered))).progress = .settled (.ok ()) ∧
    (t.obliged.call (completingRun pieces (handOver delivered))).renames = 1 ∧
    ∃ s, (t.obliged.call (completingRun pieces (handOver delivered))).session = some s ∧
      s.content = delivered.flatten := by
  have hopened : (Posix.openPosix AtomicFileSession.obligingNatives ⟨"/", [], "in"⟩
      ⟨"/", [], "out"⟩ ".pipex-0").run Posix.start =
        .ok ⟨2, 5⟩ AtomicFileSession.obligingPosix := by
    rfl
  have hwritten : ∀ chunk ∈ handOver delivered, chunk ≠ [] := by
    intro chunk hchunk
    simpa using (List.mem_filter.mp hchunk).2
  have hbegin : t.obliged.machine.Leads (FileOperation.start _) [.begin true (some obligingSession)]
      (piping 0 [] [] []) := by
    refine ⟨⟨⟨rfl, _, _, hopened, rfl⟩, trivial⟩, ?_⟩
    show (FileOperation.start _).begin t.method t.code.schema.isSome true (some obligingSession) = _
    unfold FileOperation.begin
    rw [hschema]
    rfl
  have hwhole : ([] : List Bytes).flatten ++ pieces.flatten = t.contents := hcontents
  obtain ⟨next, settled, hread⟩ := readRuns_leads 0 [] [] hwhole hpieces
  obtain ⟨next', settled', hwrite⟩ :=
    writeRuns_leads (t := t) next settled [] (pieces ++ [[]]) hwritten
  obtain ⟨op, hsettle, hop⟩ := settleRun_leads (t := t) next' settled' hdelivered (by simp)
  obtain ⟨hlegal, rfl⟩ := hbegin.append (hread.append (hwrite.append hsettle))
  rw [flatten_handOver] at hop
  exact ⟨hlegal, hop⟩

/-! ### Three bytes turned around and back -/

def turningTransfer (method : FileMethod) (contents : Bytes) : FileTransfer SampleObject where
  code := sampleCode [turningPlugin .undefined] none
  engine := sampleEngine (sampleCode [turningPlugin .undefined] none)
  streams := sampleStreams
  stringify _ := .ok none
  ts := .integer 0
  requestId := 1
  method := method
  natives := AtomicFileSession.obligingNatives
  input := ⟨"/", [], "in"⟩
  output := ⟨"/", [], "out"⟩
  temporary := ".pipex-0"
  contents := contents

/-- What is delivered for two pieces is written at once. -/
theorem turning_completes (method : FileMethod) (a b c : UInt8)
    (hdelivered : (turningTransfer method [a, b, c]).pipeline [[a, b], [c], []] = .ok [[c, b, a]]) :
    let run := completingRun [[a, b], [c]] [[c, b, a]]
    let transfer := (turningTransfer method [a, b, c]).obliged
    transfer.machine.Legal (FileOperation.start _) run ∧
      (transfer.call run).progress = .settled (.ok ()) ∧ (transfer.call run).renames = 1 ∧
      ∃ s, (transfer.call run).session = some s ∧ s.content = [c, b, a] := by
  have hpieces : ∀ piece ∈ [[a, b], [c]], piece ≠ [] ∧ piece.length ≤ defaultHighWater := by
    intro piece hpiece
    rcases List.mem_cons.mp hpiece with rfl | hpiece
    · exact ⟨nofun, show 2 ≤ defaultHighWater by decide⟩
    · rw [List.mem_singleton.mp hpiece]
      exact ⟨nofun, show 1 ≤ defaultHighWater by decide⟩
  have hpieced : [[a, b], [c]].flatten = (turningTransfer method [a, b, c]).contents := rfl
  have hdelivered' : handOver [[c, b, a]] = [[c, b, a]] := rfl
  have hflat : [[c, b, a]].flatten = [c, b, a] := rfl
  have h := (turningTransfer method [a, b, c]).completingRun_completes rfl hpieces hpieced hdelivered
  rw [hdelivered', hflat] at h
  exact h

/-- A call of an engine without plugins, on a host that packs single bytes. -/
def packingTransfer (method : FileMethod) (contents : Bytes) : FileTransfer SampleObject where
  code := ⟨bufferHost, [], none, none⟩
  engine := sampleEngine ⟨bufferHost, [], none, none⟩
  streams := bufferStreams
  stringify := sampleStringify
  ts := .integer 0
  requestId := 1
  method := method
  natives := AtomicFileSession.obligingNatives
  input := ⟨"/", [], "in"⟩
  output := ⟨"/", [], "out"⟩
  temporary := ".pipex-0"
  contents := contents

/-- What `pack` makes of two bytes that are read one by one. -/
def packedBytes : Bytes := sampleManifest ++ [0xc4, 0x01, 7, 0xc4, 0x01, 8]

/-- The line of each. -/
def sampleLines : List Bytes :=
  [bufferHost.encodeUtf8 (sampleText 0x37 ++ newline),
    bufferHost.encodeUtf8 (sampleText 0x38 ++ newline)]

theorem turning_readBy :
    ReadBy defaultLimits (turningPlugin .undefined) (turningPlugin .undefined) := by
  refine ⟨fun x y => y = x.reverse, writes_of_native rfl ?_ ?_, reads_of_native rfl rfl rfl
    (checkRetryOptions_none defaultLimits_valid) ?_ ?_⟩
  · rintro ctx attempt x y - - h
    cases h
    rfl
  · rintro context chunks pushed - - h
    cases h
    exact List.flatten_singleton
  · rintro ctx x y - - - rfl
    exact congrArg (fun data => Except.ok (some data)) (List.reverse_reverse x)
  · rintro context chunks x - - - h
    refine ⟨[chunks.flatten.reverse], rfl, ?_⟩
    rw [List.flatten_singleton, h, List.reverse_reverse]

/-! ### Contents -/

/-- Whatever happens, and at any moment: what has been bound to the output name is the
    whole of what the pipeline makes of the whole input, and a call that resolves has
    bound it. -/
theorem bound_content (t : FileTransfer Obj) {actions : List (FileOperation.Action t.sessions)}
    (hlegal : t.machine.Legal (FileOperation.start t.sessions) actions) :
    (0 < (t.call actions).renames →
      ∃ s, (t.call actions).session = some s ∧ t.Delivers s.content) ∧
    ((t.call actions).progress = .settled (.ok ()) → 0 < (t.call actions).renames) := by
  have h := t.underway_run hlegal
  exact ⟨h.delivers, h.bound_of_resolved⟩

/-- What is bound in the end of the first run. -/
theorem bound_content_turned :
    ∃ s, ((turningTransfer .process [1, 2, 3]).obliged.call
      (completingRun [[1, 2], [3]] [[3, 2, 1]])).session = some s ∧
      (turningTransfer .process [1, 2, 3]).obliged.Delivers s.content := by
  obtain ⟨hlegal, hresolved, -, -⟩ :=
    turning_completes .process 1 2 3 (by decide +kernel)
  have h := bound_content _ hlegal
  exact h.1 (h.2 hresolved)

/-- What `process` has put into a file, `reverse` of an engine whose plugins read it leads
    back: no pipeline over that file fails, however it is read, and what is bound to the
    output name is the input of `process`. -/
theorem file_restored (t t' : FileTransfer Obj) (hforward : t.method = .process)
    (hback : t'.method = .reverse)
    (hplugins : List.Forall₂ (ReadBy t.engine.limits) t.code.plugins t'.code.plugins)
    (hlimits : t'.engine.limits = t.engine.limits)
    {actions : List (FileOperation.Action t.sessions)}
    (hlegal : t.machine.Legal (FileOperation.start t.sessions) actions)
    (hresolved : (t.call actions).progress = .settled (.ok ()))
    (hcontents : ∀ s, (t.call actions).session = some s → t'.contents = s.content)
    (hdata : t.contents.length ≤ t.engine.limits.maxOutputBytes)
    (hencoded : t'.contents.length ≤ t.engine.limits.maxInputBytes) :
    (∀ cut, cut.flatten = t'.contents → ∃ delivered,
      t'.code.runPipeline t'.requestId true cut t'.engine = .ok delivered ∧
        delivered.flatten = t.contents) ∧
    ∀ actions', t'.machine.Legal (FileOperation.start t'.sessions) actions' →
      0 < (t'.call actions').renames →
        ∃ s, (t'.call actions').session = some s ∧ s.content = t.contents := by
  have h := t.underway_run hlegal
  obtain ⟨s, hs, source, delivered, hsource, hdelivers, hcontent⟩ :=
    h.delivers (h.bound_of_resolved hresolved)
  simp only [pipeline, hforward] at hdelivers
  have hencoding : EngineCode.Encoding t.code t.engine t.contents t'.contents := by
    rw [hcontents s hs, hcontent, ← hsource]
    exact .file hdelivers
  have hrestored : ∀ cut, cut.flatten = t'.contents → ∃ delivered,
      t'.code.runPipeline t'.requestId true cut t'.engine = .ok delivered ∧
        delivered.flatten = t.contents := fun cut hcut =>
    EngineCode.runPipeline_restored hencoding hplugins hlimits hdata hencoded t'.requestId hcut
  refine ⟨hrestored, fun actions' hlegal' hbound' => ?_⟩
  obtain ⟨s', hs', source', delivered', hsource', hdelivers', hcontent'⟩ :=
    (t'.underway_run hlegal').delivers hbound'
  simp only [pipeline, hback] at hdelivers'
  -- the source of `reverse` is one of the cuts
  obtain ⟨restored, hrestored, hsame⟩ := hrestored source' hsource'
  rw [hrestored] at hdelivers'
  cases hdelivers'
  exact ⟨s', hs', hcontent'.trans hsame⟩

/-- Three bytes are turned around in one file, and turned back in the next. -/
theorem file_restored_turned :
    ∃ s, ((turningTransfer .reverse [3, 2, 1]).obliged.call
      (completingRun [[3, 2], [1]] [[1, 2, 3]])).session = some s ∧ s.content = [1, 2, 3] := by
  obtain ⟨hlegal, hresolved, -, s, hs, hcontent⟩ :=
    turning_completes .process 1 2 3 (by decide +kernel)
  obtain ⟨hlegal', -, hrenames, -⟩ :=
    turning_completes .reverse 3 2 1 (by decide +kernel)
  refine (file_restored (turningTransfer .process [1, 2, 3]).obliged
    (turningTransfer .reverse [3, 2, 1]).obliged rfl rfl
    (.cons turning_readBy .nil) rfl hlegal hresolved ?_ (by decide) (by decide)).2 _ hlegal' ?_
  · intro s' hs'
    rw [hs] at hs'
    cases hs'
    exact hcontent.symm
  · exact Nat.lt_of_lt_of_eq Nat.one_pos hrenames.symm

/-- What `pack` has put into a file, `unpack` under the same limits writes out in lines:
    what is bound to the output name holds one line for each piece of the input of `pack`,
    and nothing else. -/
theorem file_unpacked (t t' : FileTransfer Obj) (hforward : t.method = .pack)
    (hback : t'.method = .unpack) (hhost : t'.code.host = t.code.host)
    (hschema : t'.code.schema = none) (hstreams : t'.streams = t.streams)
    (hlimits : t'.engine.limits = t.engine.limits)
    (hlines : WritesLines t.code.host t'.stringify) (hconcat : t.streams.Concatenates t.code.host)
    (hmanifest : manifestOf t.code.host (t.streams.literal ⟨[], t.ts⟩) = some ⟨[], t.ts⟩)
    (hliteral : Inverts t.code.host [t.streams.literal ⟨[], t.ts⟩])
    (hbuffers : ∀ bytes, Inverts t.code.host [.buffer bytes])
    {actions : List (FileOperation.Action t.sessions)}
    (hlegal : t.machine.Legal (FileOperation.start t.sessions) actions)
    (hbound : 0 < (t.call actions).renames)
    (hcontents : ∀ s, (t.call actions).session = some s → t'.contents = s.content)
    {actions' : List (FileOperation.Action t'.sessions)}
    (hlegal' : t'.machine.Legal (FileOperation.start t'.sessions) actions')
    (hbound' : 0 < (t'.call actions').renames) :
    ∃ s, (t'.call actions').session = some s ∧
      ∃ (pieces : List Bytes) (texts : List JsString), pieces.flatten = t.contents ∧
        List.Forall₂ (fun piece text => lineText t'.stringify (.buffer piece) = .ok text)
          pieces texts ∧
        s.content.splitOn 0x0a = texts.map t.code.host.encodeUtf8 ++ [[]] := by
  obtain ⟨s, hs, source, packed, hsource, hpacked, hcontent⟩ :=
    (t.underway_run hlegal).delivers hbound
  obtain ⟨s', hs', source', delivered, hsource', hdelivered, hcontent'⟩ :=
    (t'.underway_run hlegal').delivers hbound'
  simp only [pipeline, hforward] at hpacked
  simp only [pipeline, hback, hstreams, hlimits] at hdelivered
  have hinput : source'.flatten = packed.flatten := by
    rw [hsource', hcontents s hs, hcontent]
  obtain ⟨pieces, texts, hpieces, htexts, hsplit⟩ := EngineCode.fileUnpack_packed hhost hschema
    hlines hconcat hmanifest hliteral hbuffers hpacked hinput hdelivered
  exact ⟨s', hs', pieces, texts, hpieces.trans hsource, htexts, hcontent' ▸ hsplit⟩

/-- Two bytes are packed into one file, and written out as two lines of the next. -/
theorem file_unpacked_bytes :
    ∃ s, ((packingTransfer .unpack packedBytes).obliged.call
        (completingRun [sampleManifest, [0xc4, 0x01, 7, 0xc4, 0x01, 8]] sampleLines)).session =
          some s ∧
      ∃ (pieces : List Bytes) (texts : List JsString), pieces.flatten = [7, 8] ∧
        List.Forall₂ (fun piece text => lineText sampleStringify (.buffer piece) = .ok text)
          pieces texts ∧
        s.content.splitOn 0x0a = texts.map bufferHost.encodeUtf8 ++ [[]] := by
  obtain ⟨hlegal, -, hrenames, s, hs, hcontent⟩ :=
    (packingTransfer .pack [7, 8]).completingRun_completes rfl
      (show ∀ piece ∈ [[7], [8]], piece ≠ [] ∧ piece.length ≤ defaultHighWater by decide) rfl
      (show _ = Except.ok [sampleManifest, [0xc4, 0x01, 7], [0xc4, 0x01, 8]] by decide +kernel)
  obtain ⟨hlegal', -, hrenames', -⟩ :=
    (packingTransfer .unpack packedBytes).completingRun_completes rfl
      (show ∀ piece ∈ [sampleManifest, [0xc4, 0x01, 7, 0xc4, 0x01, 8]],
        piece ≠ [] ∧ piece.length ≤ defaultHighWater by decide)
      rfl (show _ = Except.ok sampleLines by decide +kernel)
  refine file_unpacked (packingTransfer .pack [7, 8]).obliged
    (packingTransfer .unpack packedBytes).obliged rfl rfl rfl rfl rfl rfl
    bufferHost_writesLines bufferStreams_concatenates rfl (bufferHost_inverts rfl)
    (fun bytes => bufferHost_inverts rfl) hlegal (Nat.lt_of_lt_of_eq Nat.one_pos hrenames.symm) ?_
    hlegal' (Nat.lt_of_lt_of_eq Nat.one_pos hrenames'.symm)
  intro s' hs'
  rw [hs] at hs'
  cases hs'
  exact hcontent.symm

end FileTransfer
end PipeX
