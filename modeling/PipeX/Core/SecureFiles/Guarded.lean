/-
  PipeX.Core.SecureFiles.Guarded

  The native reads and writes of a session, and what `dispose` waits for: when it
  goes on, none of them is under way, and none will be.
-/
import PipeX.Core.SecureFiles.Session

namespace PipeX.AtomicFileSession

open Transition

/-! ## Promises that are not settled -/

/-- The promise of a read whose native call is under way. -/
def readRunning : Option Reading → List Nat
  | some ⟨task, none⟩ => [task]
  | _ => []

/-- The promise of a read whose reactions are to come. -/
def readEnded : Option Reading → List Nat
  | some ⟨task, some _⟩ => [task]
  | _ => []

/-- The promises of a write that are to be settled. -/
def writeRunning : Option Writing → List Nat
  | some ⟨_, _, work, .running task⟩ => [task, work]
  | some ⟨_, _, work, .returned _ _⟩ => [work]
  | _ => []

/-- The promise of a write whose reactions are to come. -/
def writeEnded : Option Writing → List Nat
  | some ⟨_, _, _, .returned task _⟩ => [task]
  | some ⟨_, _, work, .finished _⟩ => [work]
  | _ => []

def running (s : AtomicFileSession) : List Nat := readRunning s.reading ++ writeRunning s.writing

def ended (s : AtomicFileSession) : List Nat := readEnded s.reading ++ writeEnded s.writing

/-- A native read is under way. -/
def ReadRunning (s : AtomicFileSession) : Prop := ∃ task, s.reading = some ⟨task, none⟩

/-- A native write is under way. -/
def WriteRunning (s : AtomicFileSession) : Prop :=
  ∃ chunk offset work task, s.writing = some ⟨chunk, offset, work, .running task⟩

/-! ## Invariant -/

structure Guarded (s : AtomicFileSession) : Prop where
  tracks : s.pending.Tracks s.running s.ended
  /-- `dispose` has seen whatever is still to be settled -/
  awaited : s.disposed = true → ∀ id ∈ s.running, id ∈ s.awaited
  destroyed : s.disposed = true → s.sourceDestroyed = true ∧ s.destinationDestroyed = true
  resolved : s.resolved = true → s.disposed = true ∧ ∀ id ∈ s.awaited, id ∈ s.pending.settled

/-- Behind `dispose` nothing is to be settled any more. -/
theorem Guarded.none_running {s : AtomicFileSession} (h : Guarded s) (hdisposed : s.disposed = true)
    (hsettled : ∀ id ∈ s.awaited, id ∈ s.pending.settled) : s.running = [] :=
  h.tracks.none_running (h.awaited hdisposed) hsettled

theorem ReadRunning.running_ne {s : AtomicFileSession} (h : ReadRunning s) : s.running ≠ [] := by
  obtain ⟨task, hreading⟩ := h
  rw [running, hreading]
  exact nofun

theorem WriteRunning.running_ne {s : AtomicFileSession} (h : WriteRunning s) :
    s.running ≠ [] := by
  obtain ⟨chunk, offset, work, task, hwriting⟩ := h
  rw [running, hwriting]
  exact List.append_ne_nil_of_right_ne_nil _ (List.cons_ne_nil _ _)

theorem guarded_new (handles : Posix.Handles) (posix : Posix) : Guarded (new handles posix) :=
  ⟨Tracker.tracks_new, nofun, nofun, nofun⟩

variable {s : AtomicFileSession}

/-! ## Reads -/

theorem Guarded.read (h : Guarded s) (henabled : s.sourceDestroyed = false) :
    Guarded s.read := by
  -- a disposed session has destroyed its source
  have hactive : s.disposed = false := by
    rw [Bool.eq_false_iff]
    intro hdisposed
    rw [(h.destroyed hdisposed).1] at henabled
    cases henabled
  unfold AtomicFileSession.read
  cases hreading : s.reading with
  | some reading => exact h
  | none =>
    have htracks := h.tracks
    rw [running, ended, hreading] at htracks
    refine ⟨htracks.track, ?_, ?_, ?_⟩
    · intro hdisposed
      rw [hactive] at hdisposed
      cases hdisposed
    · exact h.destroyed
    · exact h.resolved

theorem Guarded.readReturned (h : Guarded s) {data : Option Bytes} (henabled : ReadRunning s) :
    Guarded (s.readReturned data) := by
  obtain ⟨task, hreading⟩ := henabled
  have htracks := h.tracks
  have hawaited := h.awaited
  rw [running, ended, hreading] at htracks
  rw [running, hreading] at hawaited
  unfold AtomicFileSession.readReturned
  rw [hreading]
  refine ⟨htracks.settle, ?_, h.destroyed, ?_⟩
  · intro hdisposed id hid
    exact hawaited hdisposed id (List.mem_cons_of_mem _ hid)
  · intro hresolved
    obtain ⟨hdisposed, hsettled⟩ := h.resolved hresolved
    exact ⟨hdisposed, fun id hid => List.mem_cons_of_mem _ (hsettled id hid)⟩

theorem Guarded.readSettled (h : Guarded s) {task : Nat} {result : Except JsError Bytes}
    (henabled : s.reading = some ⟨task, some result⟩) : Guarded s.readSettled := by
  have htracks := h.tracks
  have hawaited := h.awaited
  rw [running, ended, henabled] at htracks
  rw [running, henabled] at hawaited
  have hforgotten : (s.pending.forget task).Tracks (writeRunning s.writing) (writeEnded s.writing) :=
    Tracker.Tracks.forget htracks
  unfold AtomicFileSession.readSettled
  rw [henabled]
  cases result with
  | error e => exact ⟨hforgotten, hawaited, fun hd => ⟨rfl, (h.destroyed hd).2⟩, h.resolved⟩
  | ok data =>
    simp only
    split
    · exact ⟨hforgotten, hawaited, h.destroyed, h.resolved⟩
    · exact ⟨hforgotten, hawaited, h.destroyed, h.resolved⟩

/-! ## Writes -/

/-- Between two native calls of a write: only its `work` is to be settled. -/
structure Working (s : AtomicFileSession) (work : Nat) : Prop where
  tracks : s.pending.Tracks (work :: readRunning s.reading) (readEnded s.reading)
  awaited : s.disposed = true → ∀ id ∈ work :: readRunning s.reading, id ∈ s.awaited
  destroyed : s.disposed = true → s.sourceDestroyed = true ∧ s.destinationDestroyed = true
  resolved : s.resolved = true → s.disposed = true ∧ ∀ id ∈ s.awaited, id ∈ s.pending.settled

theorem Working.finish {work : Nat} (h : Working s work) (chunk : Bytes) (offset : Nat)
    (outcome : Except JsError Unit) :
    Guarded (AtomicFileSession.finish chunk offset work outcome s) := by
  refine ⟨?_, ?_, h.destroyed, ?_⟩
  · refine h.tracks.settle.rearrange ?_ ?_
    · exact List.Perm.of_eq (List.append_nil _)
    · intro id hid
      rcases List.mem_append.mp hid with hid | hid
      · exact List.mem_cons_of_mem _ hid
      · rw [List.mem_singleton.mp hid]
        exact List.mem_cons_self ..
  · intro hdisposed id hid
    apply h.awaited hdisposed id
    exact List.mem_cons_of_mem _ (by simpa [running, AtomicFileSession.finish, writeRunning] using hid)
  · intro hresolved
    obtain ⟨hdisposed, hsettled⟩ := h.resolved hresolved
    exact ⟨hdisposed, fun id hid => List.mem_cons_of_mem _ (hsettled id hid)⟩

/-- No native write begins behind `dispose`. -/
theorem Working.writeLoop {work : Nat} (h : Working s work) (chunk : Bytes) (offset : Nat) :
    Guarded (AtomicFileSession.writeLoop chunk offset work s) := by
  unfold AtomicFileSession.writeLoop
  split
  · split
    · exact h.finish chunk offset _
    · rename_i hactive
      -- a new native write: the session is not disposed
      refine ⟨?_, fun hdisposed => absurd hdisposed hactive, h.destroyed, h.resolved⟩
      refine h.tracks.track.rearrange ?_ fun id hid => ?_
      · exact List.perm_append_comm
      · simpa [ended, writeEnded] using hid
  · exact h.finish chunk offset _

theorem Guarded.write (h : Guarded s) (chunk : Bytes) (hdestination : s.destinationDestroyed = false)
    (hidle : s.writing = none) : Guarded (s.write chunk) := by
  have hactive : s.disposed ≠ true := by
    intro hdisposed
    rw [(h.destroyed hdisposed).2] at hdestination
    cases hdestination
  have htracks := h.tracks
  rw [running, ended, hidle] at htracks
  have hworking : Working { s with pending := s.pending.track, chunks := s.chunks ++ [chunk] }
      s.pending.next := by
    refine ⟨?_, fun hdisposed => absurd hdisposed hactive, h.destroyed, h.resolved⟩
    refine htracks.track.rearrange ?_ fun id hid => ?_
    · exact List.Perm.of_eq (congrArg _ (List.append_nil _).symm)
    · exact List.mem_append_left _ hid
  exact hworking.writeLoop chunk 0

theorem Guarded.writeReturned (h : Guarded s) {count : Option Nat} (henabled : WriteRunning s) :
    Guarded (s.writeReturned count) := by
  obtain ⟨chunk, offset, work, task, hwriting⟩ := henabled
  have htracks := h.tracks
  have hawaited := h.awaited
  rw [running, ended, hwriting] at htracks
  rw [running, hwriting] at hawaited
  unfold AtomicFileSession.writeReturned
  rw [hwriting]
  refine ⟨?_, ?_, h.destroyed, ?_⟩
  · -- its promise is settled, and `work` still runs
    have hfirst : s.pending.Tracks (task :: (readRunning s.reading ++ [work]))
        (readEnded s.reading ++ []) :=
      htracks.rearrange List.perm_middle.symm fun _ hid => hid
    refine hfirst.settle.rearrange (List.Perm.refl _) fun id hid => ?_
    simpa [ended, writeEnded, or_comm] using hid
  · intro hdisposed id hid
    apply hawaited hdisposed id
    simp only [running, writeRunning, List.mem_append, List.mem_cons] at hid ⊢
    tauto
  · intro hresolved
    obtain ⟨hdisposed, hsettled⟩ := h.resolved hresolved
    exact ⟨hdisposed, fun id hid => List.mem_cons_of_mem _ (hsettled id hid)⟩

theorem Guarded.writeSettled (h : Guarded s) {chunk : Bytes} {offset work task : Nat}
    {result : Except JsError Nat}
    (henabled : s.writing = some ⟨chunk, offset, work, .returned task result⟩) :
    Guarded s.writeSettled := by
  have htracks := h.tracks
  have hawaited := h.awaited
  rw [running, ended, henabled] at htracks
  rw [running, henabled] at hawaited
  have hworking : Working { s with pending := s.pending.forget task } work := by
    refine ⟨?_, ?_, h.destroyed, h.resolved⟩
    · have hfirst : s.pending.Tracks (work :: readRunning s.reading)
          (task :: readEnded s.reading) := by
        refine htracks.rearrange ?_ fun id hid => ?_
        · exact (List.perm_append_comm : ([work] ++ readRunning s.reading).Perm _)
        · simpa [writeEnded, or_comm] using hid
      exact hfirst.forget
    · intro hdisposed id hid
      apply hawaited hdisposed id
      simpa [writeRunning, or_comm] using hid
  unfold AtomicFileSession.writeSettled
  rw [henabled]
  -- only progress leads back into the loop
  match result with
  | .ok 0 => exact hworking.finish chunk offset _
  | .ok (count + 1) => exact hworking.writeLoop chunk (offset + (count + 1))
  | .error e => exact hworking.finish chunk offset _

theorem Guarded.callback (h : Guarded s) {chunk : Bytes} {offset work : Nat}
    {outcome : Except JsError Unit}
    (henabled : s.writing = some ⟨chunk, offset, work, .finished outcome⟩) :
    Guarded s.callback := by
  have htracks := h.tracks
  have hawaited := h.awaited
  rw [running, ended, henabled] at htracks
  rw [running, henabled] at hawaited
  unfold AtomicFileSession.callback
  rw [henabled]
  refine ⟨?_, hawaited, ?_, h.resolved⟩
  · have hfirst : s.pending.Tracks (readRunning s.reading ++ []) (work :: readEnded s.reading) := by
      refine htracks.rearrange (List.Perm.refl _) fun id hid => ?_
      simpa [writeEnded, or_comm] using hid
    -- the write is forgotten, now that its promise has settled
    refine hfirst.forget.rearrange (List.Perm.refl _) fun id hid => ?_
    simpa [ended, writeEnded] using hid
  · intro hdisposed
    obtain ⟨hsource, hdestination⟩ := h.destroyed hdisposed
    exact ⟨hsource, by rw [hdestination]; rfl⟩

/-! ## Runs -/

theorem Guarded.dispose (h : Guarded s) : Guarded s.dispose := by
  unfold AtomicFileSession.dispose
  split
  · exact h
  · rename_i hactive
    -- the snapshot: what runs is pending
    refine ⟨h.tracks, fun _ => h.tracks.pending, fun _ => ⟨rfl, rfl⟩, ?_⟩
    intro hresolved
    exact absurd (h.resolved hresolved).1 hactive

theorem commit_eq (natives : Natives) (output : FilePath) (s : AtomicFileSession) :
    s.commit natives output = { s with posix := (s.commit natives output).posix } := by
  rw [commit]
  split
  · rfl
  · rfl

theorem guarded_step {natives : Natives} {output : FilePath} {temporary : String}
    {action : Action} (h : Guarded s) (henabled : enabled s action) :
    Guarded (step natives output temporary s action) := by
  cases action with
  | read => exact h.read henabled
  | readReturned data => exact h.readReturned henabled.1
  | readSettled =>
    obtain ⟨task, result, hreading⟩ := henabled
    exact h.readSettled hreading
  | write chunk => exact h.write chunk henabled.1 henabled.2
  | writeReturned count =>
    obtain ⟨chunk, offset, work, task, hwriting, -⟩ := henabled
    exact h.writeReturned ⟨chunk, offset, work, task, hwriting⟩
  | writeSettled =>
    obtain ⟨chunk, offset, work, task, result, hwriting⟩ := henabled
    exact h.writeSettled hwriting
  | callback =>
    obtain ⟨chunk, offset, work, outcome, hwriting⟩ := henabled
    exact h.callback hwriting
  | destroySource => exact ⟨h.tracks, h.awaited, fun hd => ⟨rfl, (h.destroyed hd).2⟩, h.resolved⟩
  | destroyDestination =>
    exact ⟨h.tracks, h.awaited, fun hd => ⟨(h.destroyed hd).1, rfl⟩, h.resolved⟩
  | commit =>
    show Guarded (s.commit natives output)
    rw [commit_eq]
    exact ⟨h.tracks, h.awaited, h.destroyed, h.resolved⟩
  | dispose => exact h.dispose
  | disposeSettled =>
    obtain ⟨hdisposed, -, hsettled⟩ := henabled
    exact ⟨h.tracks, h.awaited, h.destroyed, fun _ => ⟨hdisposed, hsettled⟩⟩

end PipeX.AtomicFileSession
