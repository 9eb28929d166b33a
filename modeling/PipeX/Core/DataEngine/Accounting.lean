/-
  PipeX.Core.DataEngine.Accounting

  Whether the work of the plugins stays within the capacity accounting.

  `Supervised` is what every run of the controllers keeps.  A run can leave the
  accounting in two ways: a retry loop goes on behind the end of its operation,
  or a closure of an old set takes the set that replaced it out of the store.
  `Held`, that every unsettled promise of a plugin is accounted for, is kept by a
  run that takes neither (`capacity_accounting`), and is lost in
  `capacity_accounting_fails`, which takes the first.
-/
import PipeX.Core.DataEngine.Controllers

namespace PipeX

open DataEngine Transition

/-! ## Accounted invocations -/

/-- The slot of the request is taken, and the request waits for the promise. -/
def Accounted (engine : DataEngine) (i : Invocation) : Prop :=
  i.requestId ∈ engine.activeRequests ∧
    ∃ work, engine.pendingWork i.requestId = some work ∧
      i.pending ∈ engine.workSets i.requestId work

/-- A closure that takes no pending work out of the store: if it empties its set,
    then no other set has replaced it, or only one of settled promises. -/
def keepsPending (settled : Finset PromiseId) (engine : DataEngine) (callback : SettledCallback) :
    Bool :=
  match engine.pendingWork callback.requestId with
  | none => true
  | some work =>
    decide (work = callback.work ∨
      ((engine.workSets callback.requestId callback.work).erase callback.pending).Nonempty ∨
      engine.workSets callback.requestId work ⊆ settled)

theorem Accounted.hasPendingWork {engine : DataEngine} {i : Invocation} (h : Accounted engine i) :
    engine.hasPendingWork i.requestId = true := by
  obtain ⟨-, work, hwork, hmem⟩ := h
  rw [DataEngine.hasPendingWork, hwork]
  exact decide_eq_true (Finset.card_pos.mpr ⟨i.pending, hmem⟩)

/-- A tracked promise of an active request is accounted for, -/
theorem accounted_trackWork_self {engine : DataEngine} {id : RequestId}
    (hactive : id ∈ engine.activeRequests) (p : PromiseId) :
    Accounted (engine.trackWork id p) ⟨id, p⟩ := by
  obtain ⟨work, base, created, heq, -⟩ := trackWork_spec engine id p
  rw [heq]
  refine ⟨hactive, work, ?_, ?_⟩
  · show Function.update engine.pendingWork id (some work) id = some work
    rw [Function.update_self]
  · show p ∈ Function.update engine.workSets id _ id work
    rw [Function.update_self, Function.update_self]
    exact Finset.mem_insert_self p base

/-- and so is every other that was. -/
theorem accounted_trackWork {engine : DataEngine} {i : Invocation} (h : Accounted engine i)
    (id : RequestId) (p : PromiseId) : Accounted (engine.trackWork id p) i := by
  obtain ⟨hactive, work, hwork, hmem⟩ := h
  obtain ⟨work', base, created, heq, hbase⟩ := trackWork_spec engine id p
  rw [heq]
  refine ⟨hactive, ?_⟩
  by_cases hid : i.requestId = id
  · -- a request that waits for something keeps its set
    rcases hbase with ⟨hwork', rfl⟩ | ⟨hnone, -⟩
    · have hsame : work' = work := by
        rw [← hid, hwork] at hwork'
        exact (Option.some.inj hwork').symm
      refine ⟨work', ?_, ?_⟩
      · show Function.update engine.pendingWork id (some work') i.requestId = some work'
        rw [hid, Function.update_self]
      · show i.pending ∈ Function.update engine.workSets id _ i.requestId work'
        rw [hid, Function.update_self, Function.update_self]
        rw [hid, ← hsame] at hmem
        exact Finset.mem_insert_of_mem hmem
    · rw [← hid, hwork] at hnone
      exact absurd hnone (Option.some_ne_none work)
  · refine ⟨work, ?_, ?_⟩
    · show Function.update engine.pendingWork id (some work') i.requestId = some work
      rw [Function.update_of_ne hid, hwork]
    · show i.pending ∈ Function.update engine.workSets id _ i.requestId work
      rw [Function.update_of_ne hid]
      exact hmem

/-- A release leaves a request alone that waits for something. -/
theorem accounted_release {engine : DataEngine} {i : Invocation} (h : Accounted engine i)
    (id : RequestId) : Accounted (engine.releaseRequest id) i := by
  have hpending := h.hasPendingWork
  obtain ⟨hactive, work, hwork, hmem⟩ := h
  cases hid : engine.hasPendingWork id with
  | true =>
    rw [releaseRequest_pending hid]
    exact ⟨hactive, work, hwork, hmem⟩
  | false =>
    have hne : i.requestId ≠ id := by
      intro heq
      rw [heq, hid] at hpending
      exact absurd hpending Bool.false_ne_true
    rw [releaseRequest_free hid]
    exact ⟨Finset.mem_erase.mpr ⟨hne, hactive⟩, work, hwork, hmem⟩

/-- The run of a closure leaves the unsettled promises in the store. -/
theorem accounted_settled {engine : DataEngine} {i : Invocation} (h : Accounted engine i)
    {settled : Finset PromiseId} {callback : SettledCallback}
    (hkeeps : keepsPending settled engine callback = true)
    (hcallback : callback.pending ∈ settled) (hi : i.pending ∉ settled) :
    Accounted (engine.settled callback) i := by
  obtain ⟨hactive, work, hwork, hmem⟩ := h
  have hne : i.pending ≠ callback.pending := by
    intro heq
    exact hi (heq ▸ hcallback)
  -- the promise stays in its set, whichever set the closure is about
  have hstays : i.pending ∈ settledSets engine callback i.requestId work := by
    by_cases hsame : i.requestId = callback.requestId ∧ work = callback.work
    · rw [hsame.1, hsame.2, settledSets_self]
      rw [hsame.1, hsame.2] at hmem
      exact Finset.mem_erase.mpr ⟨hne, hmem⟩
    · rw [settledSets_of_ne engine hsame]
      exact hmem
  -- and the set stays in the store, unless it belongs to another request
  have hother : ∀ hempty : (engine.workSets callback.requestId callback.work).erase
      callback.pending = ∅, i.requestId ≠ callback.requestId := by
    intro hempty heq
    rw [heq] at hwork hmem
    rw [keepsPending, hwork] at hkeeps
    rcases of_decide_eq_true hkeeps with rfl | hnonempty | hsettled
    · have := Finset.mem_erase.mpr ⟨hne, hmem⟩
      rw [hempty] at this
      exact Finset.notMem_empty _ this
    · exact hnonempty.ne_empty hempty
    · exact hi (hsettled hmem)
  rcases settled_cases engine callback with ⟨-, heq⟩ | ⟨hempty, -, heq⟩ | ⟨hempty, -, heq⟩
  · rw [heq]
    exact ⟨hactive, work, hwork, hstays⟩
  · rw [heq]
    refine ⟨hactive, work, ?_, hstays⟩
    show Function.update engine.pendingWork callback.requestId none i.requestId = some work
    rw [Function.update_of_ne (hother hempty), hwork]
  · rw [heq]
    refine ⟨Finset.mem_erase.mpr ⟨hother hempty, hactive⟩, work, ?_, hstays⟩
    show Function.update engine.pendingWork callback.requestId none i.requestId = some work
    rw [Function.update_of_ne (hother hempty), hwork]

/-- Every call keeps an unsettled invocation accounted for, but for closures of old
    sets. -/
theorem accounted_perform {s : Session} {i : Invocation} (h : Accounted s.engine i)
    {settled : Finset PromiseId} (hi : i.pending ∉ settled) {call : Call}
    (hcall : ∀ callback, call = .settled callback →
      keepsPending settled s.engine callback = true ∧ callback.pending ∈ settled) :
    Accounted (s.perform call).engine i := by
  cases call with
  | startRequest id =>
    rcases s.perform_startRequest id with heq | heq
    · rw [heq]
      exact h
    · rw [heq]
      exact ⟨Finset.mem_insert_of_mem h.1, h.2⟩
  | trackWork id p => exact accounted_trackWork h id p
  | settled callback =>
    -- the only call that takes something out of the tracking
    obtain ⟨hkeeps, hcallback⟩ := hcall callback rfl
    exact accounted_settled h hkeeps hcallback hi
  | releaseRequest id => exact accounted_release h id
  | endRequest id => exact accounted_release h id
  | emitError err id =>
    rcases s.perform_emitError err id with ⟨-, heq⟩ | ⟨-, heq⟩
    · rw [heq]
      exact accounted_release h id
    · rw [heq]
      exact h
  | use plugin =>
    obtain ⟨plugins, heq⟩ := s.perform_use plugin
    rw [heq]
    exact h
  | setLimits limits =>
    obtain ⟨next, heq⟩ := s.perform_setLimits limits
    rw [heq]
    exact h

/-! ## What every run keeps -/

theorem started_perform (s : Session) (call : Call) : s.started ⊆ (s.perform call).started := by
  cases call with
  | startRequest id =>
    rcases s.perform_startRequest id with heq | heq
    · rw [heq]
    · rw [heq]
      exact Finset.subset_insert id s.started
  | use plugin =>
    obtain ⟨plugins, heq⟩ := s.perform_use plugin
    rw [heq]
  | setLimits limits =>
    obtain ⟨next, heq⟩ := s.perform_setLimits limits
    rw [heq]
  | emitError err id =>
    rcases s.perform_emitError err id with ⟨-, heq⟩ | ⟨-, heq⟩
    · rw [heq]
      exact Finset.Subset.refl s.started
    · rw [heq]
  | _ => exact Finset.Subset.refl s.started

/-- Only a release makes a request a released one. -/
theorem mem_released_perform {s : Session} {call : Call} {id : RequestId}
    (h : id ∈ (s.perform call).released) : id ∈ s.released ∨ call.releases = some id := by
  cases call with
  | startRequest id' =>
    rcases s.perform_startRequest id' with heq | heq
    · rw [heq] at h
      exact .inl h
    · rw [heq] at h
      exact .inl h
  | use plugin =>
    obtain ⟨plugins, heq⟩ := s.perform_use plugin
    rw [heq] at h
    exact .inl h
  | setLimits limits =>
    obtain ⟨next, heq⟩ := s.perform_setLimits limits
    rw [heq] at h
    exact .inl h
  | trackWork id' p => exact .inl h
  | settled callback => exact .inl h
  | releaseRequest id' =>
    rcases Finset.mem_insert.mp h with rfl | h
    · exact .inr rfl
    · exact .inl h
  | endRequest id' =>
    rcases Finset.mem_insert.mp h with rfl | h
    · exact .inr rfl
    · exact .inl h
  | emitError err id' =>
    rcases s.perform_emitError err id' with ⟨hreleases, heq⟩ | ⟨-, heq⟩
    · rw [heq] at h
      rcases Finset.mem_insert.mp h with rfl | h
      · exact .inr hreleases
      · exact .inl h
    · rw [heq] at h
      exact .inl h

/-- What an operation is to the store and to its loops. -/
structure Tended (session : Session) (idle : Bool) (id : RequestId) (operation : Operation) :
    Prop where
  started : id ∈ session.started
  unreleased : operation.concluded = false → id ∉ session.released
  aborted : operation.pipeline = .failed .abort → operation.signal.aborted = true
  completed : operation.pipeline = .completed → idle = true
  binary : operation.kind = .binary → operation.pipeline = .running
  concluded_binary : operation.concluded = true → operation.kind = .binary → idle = true
  concluded_stream : operation.concluded = true → operation.kind = .stream →
    operation.pipeline ≠ .running

/-- The invariant of the controllers. -/
structure Supervised (s : System) : Prop where
  store : Consistent s.session
  operations : ∀ id operation, s.operations id = some operation →
    Tended s.session (s.idle id) id operation
  loops : ∀ loop ∈ s.loops, ∃ operation, s.operations loop.requestId = some operation

theorem idle_iff {s : System} {id : RequestId} :
    s.idle id = true ↔ ∀ loop ∈ s.loops, loop.requestId = id → loop.phase = .over := by
  simp only [System.idle, List.all_eq_true, decide_eq_true_eq]

/-- A loop that is not over keeps its request from being idle. -/
theorem not_idle {s : System} {loop : RetryLoop} (hmem : loop ∈ s.loops)
    (hphase : loop.phase ≠ .over) : s.idle loop.requestId = false := by
  rw [Bool.eq_false_iff]
  intro hidle
  exact hphase (idle_iff.mp hidle loop hmem rfl)

/-- An operation stays tended while the sets of requests grow and its loops end. -/
theorem Tended.mono {session session' : Session} {idle idle' : Bool} {id : RequestId}
    {operation : Operation} (h : Tended session idle id operation)
    (hstarted : session.started ⊆ session'.started)
    (hreleased : operation.concluded = false → id ∈ session'.released → id ∈ session.released)
    (hidle : idle = true → idle' = true) : Tended session' idle' id operation where
  started := hstarted h.started
  unreleased hopen hmem := h.unreleased hopen (hreleased hopen hmem)
  aborted := h.aborted
  completed hdone := hidle (h.completed hdone)
  binary := h.binary
  concluded_binary hdone hkind := hidle (h.concluded_binary hdone hkind)
  concluded_stream := h.concluded_stream

/-- An operation that is not concluded has its slot. -/
theorem Supervised.active_of_open {s : System} (h : Supervised s) {id : RequestId}
    {operation : Operation} (hid : s.operations id = some operation)
    (hopen : operation.concluded = false) : id ∈ s.engine.activeRequests := by
  have htended := h.operations id operation hid
  exact h.store.unreleased_active id htended.started (htended.unreleased hopen)

/-- A call that does not release the operation keeps it tended. -/
theorem tended_perform {s : System} (h : Supervised s) {call : Call} {id : RequestId}
    {operation : Operation} (hid : s.operations id = some operation)
    (hreleases : operation.concluded = false → call.releases ≠ some id) :
    Tended (s.perform call).session ((s.perform call).idle id) id operation := by
  apply (h.operations id operation hid).mono (started_perform s.session call)
  · intro hopen hmem
    exact (mem_released_perform hmem).resolve_right (hreleases hopen)
  · exact fun hidle => hidle

/-- Calls that release no open operation keep the invariant. -/
theorem supervised_perform {s : System} (h : Supervised s) {call : Call}
    (henabled : s.session.enabled call = true)
    (hreleases : ∀ id operation, s.operations id = some operation → operation.concluded = false →
      call.releases ≠ some id) :
    Supervised (s.perform call) :=
  ⟨consistent_perform h.store henabled,
    fun id operation hid => tended_perform h hid (hreleases id operation hid), h.loops⟩

/-- Tracking keeps the invariant. -/
theorem supervised_trackWork {s : System} (h : Supervised s) {id : RequestId}
    {operation : Operation} (hid : s.operations id = some operation) (p : PromiseId) :
    Supervised (s.perform (.trackWork id p)) := by
  apply supervised_perform h
  · exact decide_eq_true (h.operations id operation hid).started
  · intro id' operation' _ _
    exact nofun

@[simp] theorem setOperation_self (s : System) (id : RequestId) (operation : Operation) :
    (s.setOperation id operation).operations id = some operation := by
  rw [System.setOperation]
  exact Function.update_self id (some operation) s.operations

theorem setOperation_of_ne (s : System) {id id' : RequestId} (h : id' ≠ id)
    (operation : Operation) : (s.setOperation id operation).operations id' = s.operations id' := by
  rw [System.setOperation]
  exact Function.update_of_ne h (some operation) s.operations

/-- A new operation, or a new state of an old one. -/
theorem supervised_setOperation {s : System} {id : RequestId} {operation : Operation}
    (hstore : Consistent s.session)
    (hothers : ∀ id' operation', id' ≠ id → s.operations id' = some operation' →
      Tended s.session (s.idle id') id' operation')
    (hloops : ∀ loop ∈ s.loops, ∃ operation, s.operations loop.requestId = some operation)
    (htended : Tended s.session (s.idle id) id operation) :
    Supervised (s.setOperation id operation) := by
  refine ⟨hstore, ?_, ?_⟩
  · intro id' operation' hid'
    by_cases heq : id' = id
    · subst heq
      rw [setOperation_self] at hid'
      cases hid'
      exact htended
    · -- the other operations are as they were
      rw [setOperation_of_ne s heq] at hid'
      exact hothers id' operation' heq hid'
  · intro loop hmem
    by_cases heq : loop.requestId = id
    · exact ⟨operation, by rw [heq, setOperation_self]⟩
    · obtain ⟨operation', hid'⟩ := hloops loop hmem
      exact ⟨operation', by rw [setOperation_of_ne s heq, hid']⟩

theorem supervised_updateOperation {s : System} (h : Supervised s) {id : RequestId}
    {f : Operation → Operation}
    (htended : ∀ operation, s.operations id = some operation →
      Tended s.session (s.idle id) id (f operation)) : Supervised (s.updateOperation id f) := by
  rw [System.updateOperation]
  cases hid : s.operations id with
  | none => exact h
  | some operation =>
    exact supervised_setOperation h.store (fun id' operation' _ hid' => h.operations id' operation' hid')
      h.loops (htended operation hid)

/-- Putting another loop of the same request in its place keeps the invariant, if
    that request was not idle or the loop is over. -/
theorem supervised_setLoop {s : System} (h : Supervised s) {index : Nat} {loop next : RetryLoop}
    (hindex : s.loops[index]? = some loop) (hid : next.requestId = loop.requestId)
    (hphase : loop.phase ≠ .over ∨ next.phase = .over) : Supervised (s.setLoop index next) := by
  have hmem : loop ∈ s.loops := List.mem_of_getElem? hindex
  have hset : ∀ loop' ∈ s.loops.set index next, loop' = next ∨ loop' ∈ s.loops := by
    intro loop' hmem'
    exact (List.mem_or_eq_of_mem_set hmem').symm
  refine ⟨h.store, ?_, ?_⟩
  · intro id operation hop
    apply (h.operations id operation hop).mono (Finset.Subset.refl _) (fun _ hmem => hmem)
    intro hidle
    apply idle_iff.mpr
    intro loop' hmem' hloop'
    rcases hset loop' hmem' with rfl | hmem'
    · rcases hphase with hphase | hphase
      · -- the request was not idle, so this is about another one
        rw [← hloop', hid] at hidle
        exact absurd (idle_iff.mp hidle loop hmem rfl) hphase
      · exact hphase
    · exact idle_iff.mp hidle loop' hmem' hloop'
  · intro loop' hmem'
    rcases hset loop' hmem' with rfl | hmem'
    · rw [hid]
      exact h.loops loop hmem
    · exact h.loops loop' hmem'

/-- A further loop keeps the invariant while its operation goes on. -/
theorem supervised_addLoop {s : System} (h : Supervised s) {loop : RetryLoop}
    {operation : Operation} (hid : s.operations loop.requestId = some operation)
    (hopen : operation.concluded = false) (hrunning : operation.pipeline = .running) :
    Supervised { s with loops := s.loops ++ [loop] } := by
  refine ⟨h.store, ?_, ?_⟩
  · intro id operation' hid'
    have htended := h.operations id operation' hid'
    by_cases heq : id = loop.requestId
    · rw [heq, hid] at hid'
      cases hid'
      -- the loop belongs to a pipeline that still runs
      exact {
        started := htended.started
        unreleased := htended.unreleased
        aborted := htended.aborted
        completed := fun hdone => by rw [hrunning] at hdone; cases hdone
        binary := htended.binary
        concluded_binary := fun hdone => by rw [hopen] at hdone; cases hdone
        concluded_stream := fun hdone => by rw [hopen] at hdone; cases hdone }
    · apply htended.mono (Finset.Subset.refl _) (fun _ hmem => hmem)
      intro hidle
      apply idle_iff.mpr
      -- another request has no more loops than before
      intro loop' hmem' hloop'
      rcases List.mem_append.mp hmem' with hmem' | hmem'
      · exact idle_iff.mp hidle loop' hmem' hloop'
      · rw [List.mem_singleton.mp hmem'] at hloop'
        exact absurd hloop'.symm heq
  · intro loop' hmem'
    rcases List.mem_append.mp hmem' with hmem' | hmem'
    · exact h.loops loop' hmem'
    · rw [List.mem_singleton.mp hmem']
      exact ⟨operation, hid⟩

/-- What happens to a signal never takes its abort back. -/
theorem supervised_updateSignal {s : System} (h : Supervised s) (id : RequestId)
    (f : Signal → Signal) (hf : ∀ signal, signal.aborted = true → (f signal).aborted = true) :
    Supervised (s.updateOperation id fun operation =>
      { operation with signal := f operation.signal }) := by
  apply supervised_updateOperation h
  intro operation hid
  have htended := h.operations id operation hid
  exact ⟨htended.started, htended.unreleased, fun hp => hf _ (htended.aborted hp),
    htended.completed, htended.binary, htended.concluded_binary, htended.concluded_stream⟩

/-- A controller begins. -/
theorem supervised_begin {s : System} (h : Supervised s) {kind : OperationKind} {id : RequestId}
    (hid : id ∉ s.session.started) : Supervised (s.step (.begin kind id)) := by
  rcases startRequest_cases id s.engine with ⟨e, hrun, -⟩ | ⟨-, hrun⟩
  · simp only [System.step, hrun]
    exact h
  · simp only [System.step, hrun]
    have henabled : s.session.enabled (.startRequest id) = true := decide_eq_true hid
    apply supervised_setOperation (consistent_perform h.store henabled)
    · intro id' operation' _ hid'
      apply tended_perform h hid'
      exact fun _ => nofun
    · exact h.loops
    · -- the id is new, so nothing was ever released under it
      have hstarted : id ∈ (s.perform (.startRequest id)).session.started := by
        simp only [System.perform, Session.perform]
        rw [show s.session.engine = s.engine from rfl, hrun]
        exact Finset.mem_insert_self id _
      have hreleased : id ∉ (s.perform (.startRequest id)).session.released := by
        intro hmem
        rcases mem_released_perform hmem with hmem | heq
        · exact hid (h.store.released_started hmem)
        · cases heq
      exact ⟨hstarted, fun _ => hreleased, Pipeline.noConfusion, Pipeline.noConfusion, fun _ => rfl,
        Bool.noConfusion, Bool.noConfusion⟩

/-- The last call of a controller releases its request or none. -/
theorem releases_concluding {id id' : RequestId} {failure : Option Thrown}
    (h : (System.concluding id failure).releases = some id') : id' = id := by
  cases failure with
  | none => exact (Option.some.inj h).symm
  | some err => exact Call.releases_emitError h

/-- A controller is done. -/
theorem supervised_conclude {s : System} (h : Supervised s) {id : RequestId}
    {failure : Option Thrown} (henabled : s.enabled (.conclude id failure) = true) :
    Supervised (s.step (.conclude id failure)) := by
  simp only [System.enabled, Option.any_eq_true] at henabled
  obtain ⟨operation, hid, hconclude⟩ := henabled
  have htended := h.operations id operation hid
  have hcall : s.session.enabled (System.concluding id failure) = true := by
    cases failure with
    | none => exact decide_eq_true htended.started
    | some err => exact decide_eq_true htended.started
  simp only [System.step, System.updateOperation]
  rw [show (s.perform (System.concluding id failure)).operations id = some operation from hid]
  apply supervised_setOperation (consistent_perform h.store hcall)
  · intro id' operation' hne hid'
    apply tended_perform h hid'
    exact fun _ hreleases => hne (releases_concluding hreleases)
  · exact h.loops
  · simp only [System.canConclude, Bool.and_eq_true] at hconclude
    refine ⟨started_perform s.session _ htended.started, Bool.noConfusion, htended.aborted,
      htended.completed, htended.binary, ?_, ?_⟩
    · intro _ hkind
      rw [show operation.kind = .binary from hkind] at hconclude
      exact hconclude.2
    · intro _ hkind
      rw [show operation.kind = .stream from hkind] at hconclude
      exact of_decide_eq_true hconclude.2

/-- A concluded request may be released any number of times. -/
theorem supervised_release {s : System} (h : Supervised s) {id : RequestId}
    (hany : (s.operations id).any Operation.concluded = true) {call : Call}
    (hcall : id ∈ s.session.started → s.session.enabled call = true)
    (hreleases : ∀ id', call.releases = some id' → id' = id) : Supervised (s.perform call) := by
  obtain ⟨operation, hid, hdone⟩ := Option.any_eq_true _ _ |>.mp hany
  apply supervised_perform h (hcall (h.operations id operation hid).started)
  intro id' operation' hid' hopen hreleased
  -- an operation that is open is another one
  rw [hreleases id' hreleased, hid] at hid'
  cases hid'
  rw [hdone] at hopen
  cases hopen

theorem withLoop_iff {s : System} {index : Nat} {p : RetryLoop → Operation → Bool} :
    s.withLoop index p = true ↔ ∃ loop operation, s.loops[index]? = some loop ∧
      s.operations loop.requestId = some operation ∧ p loop operation = true := by
  rw [System.withLoop]
  cases hindex : s.loops[index]? with
  | none => simp
  | some loop => simp [Option.any_eq_true]

/-- A call of a plugin changes the store only by what it tracks. -/
theorem supervised_attempt {s : System} (h : Supervised s) {signal : Signal} {loop : RetryLoop}
    {operation : Operation} (hid : s.operations loop.requestId = some operation)
    (outcome : Outcome) : Supervised (s.attempt signal loop outcome).1 := by
  cases outcome with
  | throws => exact h
  | returns p =>
    have htrack := supervised_trackWork h hid p
    exact ⟨htrack.store, htrack.operations, htrack.loops⟩

theorem attempt_frame (s : System) (signal : Signal) (loop : RetryLoop) (outcome : Outcome) :
    (s.attempt signal loop outcome).1.loops = s.loops ∧
      (s.attempt signal loop outcome).1.operations = s.operations ∧
      (s.attempt signal loop outcome).2.requestId = loop.requestId := by
  cases outcome with
  | throws => exact ⟨rfl, rfl, rfl⟩
  | returns p => exact ⟨rfl, rfl, rfl⟩

/-- A loop that can go on is not over. -/
theorem ne_over_of_waiting {phase : LoopPhase} (h : phase = .caught ∨ phase = .delaying) :
    phase ≠ .over := by
  rcases h with rfl | rfl
  · exact LoopPhase.noConfusion
  · exact LoopPhase.noConfusion

/-- The first attempt of a loop, which joins the others. -/
theorem supervised_enter {s : System} (h : Supervised s) {id : RequestId} {options : RetryOptions}
    {outcome : Outcome} (henabled : s.enabled (.enter id options outcome) = true) :
    Supervised (s.step (.enter id options outcome)) := by
  simp only [System.enabled, Bool.and_eq_true, Option.any_eq_true] at henabled
  obtain ⟨-, operation, hid, henter⟩ := henabled
  simp only [System.canEnter, Bool.and_eq_true, Bool.not_eq_true', decide_eq_true_eq] at henter
  obtain ⟨⟨⟨hopen, hrunning⟩, -⟩, -⟩ := henter
  have hattempt := @supervised_attempt s h operation.signal
    ⟨id, options.attempts, options.delayMs, 0, .caught⟩ operation hid outcome
  obtain ⟨-, hoperations, hrequest⟩ := attempt_frame s operation.signal
    ⟨id, options.attempts, options.delayMs, 0, .caught⟩ outcome
  simp only [System.step, hid]
  apply supervised_addLoop hattempt
  · rw [hoperations, hrequest]
    exact hid
  · exact hopen
  · exact hrunning

/-- A further attempt, in the place of the loop. -/
theorem supervised_resume {s : System} (h : Supervised s) {index : Nat} {outcome : Outcome}
    (henabled : s.enabled (.resume index outcome) = true) :
    Supervised (s.step (.resume index outcome)) := by
  obtain ⟨loop, operation, hindex, hid, hresume⟩ := withLoop_iff.mp henabled
  have hphase := ne_over_of_waiting (of_decide_eq_true (Bool.and_eq_true_iff.mp hresume).1)
  have hattempt := @supervised_attempt s h operation.signal
    { loop with attempt := loop.attempt + 1 } operation hid outcome
  obtain ⟨hloops, -, hrequest⟩ := attempt_frame s operation.signal
    { loop with attempt := loop.attempt + 1 } outcome
  simp only [System.step, hindex, hid]
  rw [← hloops] at hindex
  exact supervised_setLoop hattempt hindex hrequest (.inl hphase)

/-- A loop that ends, with a value or because of its signal. -/
theorem supervised_over {s : System} (h : Supervised s) {index : Nat} {loop : RetryLoop}
    (hindex : s.loops[index]? = some loop) :
    Supervised (s.setLoop index { loop with phase := .over }) :=
  supervised_setLoop h hindex rfl (.inr rfl)

/-- An attempt that fails behind its wait. -/
theorem supervised_reject {s : System} (h : Supervised s) {index : Nat}
    (henabled : s.enabled (.reject index) = true) : Supervised (s.step (.reject index)) := by
  obtain ⟨loop, operation, hindex, hid, hreject⟩ := withLoop_iff.mp henabled
  have hphase : loop.phase ≠ .over := by
    intro hover
    rw [hover] at hreject
    exact absurd hreject Bool.false_ne_true
  simp only [System.step, hindex, hid]
  exact supervised_setLoop h hindex rfl (.inl hphase)

/-- A pipeline that fails is one of a stream, and by abort only under an aborted
    signal. -/
theorem supervised_failPipeline {s : System} (h : Supervised s) {id : RequestId} {cause : Cause}
    (henabled : s.enabled (.failPipeline id cause) = true) :
    Supervised (s.step (.failPipeline id cause)) := by
  apply supervised_updateOperation h
  intro operation hid
  have htended := h.operations id operation hid
  simp only [System.enabled, hid, Option.any_some, Bool.and_eq_true, decide_eq_true_eq] at henabled
  obtain ⟨⟨hkind, -⟩, hcause⟩ := henabled
  have hstream : operation.kind ≠ .binary := by
    rw [hkind]
    exact OperationKind.noConfusion
  exact {
    started := htended.started
    unreleased := htended.unreleased
    aborted := by
      intro hfailed
      rw [show cause = .abort from Pipeline.failed.inj hfailed] at hcause
      exact hcause
    completed := Pipeline.noConfusion
    binary := fun hbinary => absurd hbinary hstream
    concluded_binary := fun _ hbinary => absurd hbinary hstream
    concluded_stream := fun _ _ => Pipeline.noConfusion }

/-- A pipeline completes with no loop left. -/
theorem supervised_completePipeline {s : System} (h : Supervised s) {id : RequestId}
    (henabled : s.enabled (.completePipeline id) = true) :
    Supervised (s.step (.completePipeline id)) := by
  apply supervised_updateOperation h
  intro operation hid
  have htended := h.operations id operation hid
  simp only [System.enabled, hid, Option.any_some, Bool.and_eq_true, decide_eq_true_eq] at henabled
  obtain ⟨hidle, hkind, -⟩ := henabled
  have hstream : operation.kind ≠ .binary := by
    rw [hkind]
    exact OperationKind.noConfusion
  exact {
    started := htended.started
    unreleased := htended.unreleased
    aborted := Pipeline.noConfusion
    completed := fun _ => hidle
    binary := fun hbinary => absurd hbinary hstream
    concluded_binary := fun _ _ => hidle
    concluded_stream := fun _ _ => Pipeline.noConfusion }

/-- The calls that no controller's progress depends on. -/
theorem supervised_call {s : System} (h : Supervised s) {call : Call}
    (henabled : s.enabled (.call call) = true) : Supervised (s.step (.call call)) := by
  simp only [System.enabled] at henabled
  show Supervised (s.perform call)
  cases call with
  | startRequest id => exact absurd henabled Bool.false_ne_true
  | trackWork id p => exact supervised_perform h henabled fun _ _ _ _ => nofun
  | settled callback =>
    exact supervised_perform h (Bool.and_eq_true_iff.mp henabled).1 fun _ _ _ _ => nofun
  | releaseRequest id =>
    exact supervised_release h henabled decide_eq_true fun _ heq => (Option.some.inj heq).symm
  | endRequest id =>
    exact supervised_release h henabled decide_eq_true fun _ heq => (Option.some.inj heq).symm
  | emitError err id =>
    exact supervised_release h henabled decide_eq_true fun _ => Call.releases_emitError
  | use plugin => exact supervised_perform h henabled fun _ _ _ _ => nofun
  | setLimits limits => exact supervised_perform h henabled fun _ _ _ _ => nofun

/-- Every step of the controllers keeps the invariant. -/
theorem supervised_step {s : System} {action : Action} (h : Supervised s)
    (henabled : controllers.enabled s action) : Supervised (controllers.step s action) := by
  have henabled : s.enabled action = true := henabled
  show Supervised (s.step action)
  cases action with
  | begin kind id => exact supervised_begin h (of_decide_eq_true henabled)
  | enter id options outcome => exact supervised_enter h henabled
  | resume index outcome => exact supervised_resume h henabled
  | deliver index =>
    obtain ⟨loop, operation, hindex, -, -⟩ := withLoop_iff.mp henabled
    simp only [System.step, hindex]
    exact supervised_over h hindex
  | reject index => exact supervised_reject h henabled
  | abandon index =>
    obtain ⟨loop, operation, hindex, -, -⟩ := withLoop_iff.mp henabled
    simp only [System.step, hindex]
    exact supervised_over h hindex
  | abort id => exact supervised_updateSignal h id ({ · with aborted := true }) fun _ _ => rfl
  | passDeadline id =>
    exact supervised_updateSignal h id ({ · with deadlinePassed := true }) fun _ haborted => haborted
  | fireTimer id =>
    exact supervised_updateSignal h id ({ · with timerFired := true }) fun _ haborted => haborted
  | settle p => exact ⟨h.store, h.operations, h.loops⟩
  | failPipeline id cause => exact supervised_failPipeline h henabled
  | completePipeline id => exact supervised_completePipeline h henabled
  | conclude id failure => exact supervised_conclude h henabled
  | call call => exact supervised_call h henabled

/-! ## Runs that stay within the accounting -/

namespace System

/-- The step takes neither way out of the accounting. -/
def staysAccounted (s : System) : Action → Bool
  | .resume index _ =>
    s.withLoop index fun _ operation =>
      !(operation.concluded && decide (operation.pipeline = .failed .other))
  | .call (.settled callback) => keepsPending s.settled s.engine callback
  | _ => true

/-- The request for which the step calls a plugin. -/
def starts (s : System) : Action → Option RequestId
  | .enter requestId _ _ => some requestId
  | .resume index _ => (s.loops[index]?).map RetryLoop.requestId
  | _ => none

/-- A step that calls a plugin finds the request active. -/
def StartsActive (s : System) (action : Action) : Prop :=
  ∀ requestId, s.starts action = some requestId → requestId ∈ s.engine.activeRequests

/-- Every unsettled invocation belongs to an active request. -/
def InvocationsActive (s : System) : Prop :=
  ∀ i ∈ s.invocations, i.pending ∉ s.settled → i.requestId ∈ s.engine.activeRequests

end System

/-- Every unsettled invocation is accounted for. -/
def Held (s : System) : Prop :=
  ∀ i ∈ s.invocations, i.pending ∉ s.settled → Accounted s.engine i

/-- A loop goes on for an active request, if its pipeline has not failed on its own
    account before. -/
theorem resume_active {s : System} (h : Supervised s) {loop : RetryLoop} {operation : Operation}
    (hmem : loop ∈ s.loops) (hid : s.operations loop.requestId = some operation)
    (hphase : loop.phase ≠ .over) (hsignal : operation.signal.throws = false)
    (hpipeline : operation.concluded = true → operation.pipeline ≠ .failed .other) :
    loop.requestId ∈ s.engine.activeRequests := by
  have htended := h.operations loop.requestId operation hid
  have hbusy := not_idle hmem hphase
  cases hdone : operation.concluded with
  | false => exact h.active_of_open hid hdone
  | true =>
    -- no other end of an operation leaves a loop behind that could go on
    exfalso
    cases hkind : operation.kind with
    | binary =>
      have hidle := htended.concluded_binary hdone hkind
      rw [hbusy] at hidle
      cases hidle
    | stream =>
      cases hp : operation.pipeline with
      | running => exact htended.concluded_stream hdone hkind hp
      | completed =>
        have hidle := htended.completed hp
        rw [hbusy] at hidle
        cases hidle
      | failed cause =>
        cases cause with
        | other => exact hpipeline hdone hp
        | abort =>
          have haborted := htended.aborted hp
          rw [Signal.throws, haborted] at hsignal
          cases hsignal

/-- Every step that calls a plugin finds its request active. -/
theorem startsActive_of_staysAccounted {s : System} (h : Supervised s) {action : Action}
    (henabled : s.enabled action = true) (hstays : s.staysAccounted action = true) :
    s.StartsActive action := by
  intro id hstarts
  cases action with
  | enter id' options outcome =>
    cases hstarts
    simp only [System.enabled, Bool.and_eq_true, Option.any_eq_true] at henabled
    obtain ⟨-, operation, hid, henter⟩ := henabled
    simp only [System.canEnter, Bool.and_eq_true, Bool.not_eq_true'] at henter
    -- an attempt begins while its operation is open
    exact h.active_of_open hid henter.1.1.1
  | resume index outcome =>
    obtain ⟨loop, operation, hindex, hid, hresume⟩ := withLoop_iff.mp henabled
    obtain ⟨loop', operation', hindex', hid', hgap⟩ := withLoop_iff.mp hstays
    rw [hindex] at hindex'
    cases hindex'
    rw [hid] at hid'
    cases hid'
    simp only [Bool.and_eq_true, Bool.not_eq_true'] at hresume
    have hphase := ne_over_of_waiting (of_decide_eq_true hresume.1)
    -- a later attempt begins behind a delay, under the same request
    have hactive : loop.requestId ∈ s.engine.activeRequests := by
      apply resume_active h (List.mem_of_getElem? hindex) hid hphase hresume.2
      intro hdone hfailed
      rw [hdone, hfailed] at hgap
      cases hgap
    simp only [System.starts, hindex, Option.map_some, Option.some.injEq] at hstarts
    rw [← hstarts]
    exact hactive
  | _ => cases hstarts

/-- A call of a plugin for an active request is accounted for. -/
theorem held_attempt {s : System} (h : Held s) {loop : RetryLoop}
    (hactive : loop.requestId ∈ s.engine.activeRequests) (signal : Signal) (outcome : Outcome) :
    Held (s.attempt signal loop outcome).1 := by
  cases outcome with
  | throws => exact h
  | returns p =>
    intro i hi hunsettled
    rcases List.mem_cons.mp hi with rfl | hi
    · exact accounted_trackWork_self hactive p
    · exact accounted_trackWork (h i hi hunsettled) loop.requestId p

theorem held_perform {s : System} (h : Held s) {call : Call}
    (hcall : ∀ callback, call = .settled callback →
      keepsPending s.settled s.engine callback = true ∧ callback.pending ∈ s.settled) :
    Held (s.perform call) := by
  intro i hi hunsettled
  exact accounted_perform (h i hi hunsettled) hunsettled hcall

theorem held_updateOperation {s : System} (h : Held s) (id : RequestId)
    (f : Operation → Operation) : Held (s.updateOperation id f) := by
  rw [System.updateOperation]
  cases s.operations id with
  | none => exact h
  | some operation => exact h

/-- Every step that takes neither way out of the accounting keeps it. -/
theorem held_step {s : System} {action : Action} (h : Held s) (hsupervised : Supervised s)
    (henabled : s.enabled action = true) (hstays : s.staysAccounted action = true) :
    Held (s.step action) := by
  have hstarts := startsActive_of_staysAccounted hsupervised henabled hstays
  -- of the calls only `settled` takes anything out of the tracking
  have hother : ∀ call : Call, (∀ callback, call ≠ .settled callback) → Held (s.perform call) := by
    intro call hne
    apply held_perform h
    exact fun callback heq => absurd heq (hne callback)
  cases action with
  | begin kind id =>
    rcases startRequest_cases id s.engine with ⟨e, hrun, -⟩ | ⟨-, hrun⟩
    · simp only [System.step, hrun]
      exact h
    · simp only [System.step, hrun]
      exact hother (.startRequest id) fun _ => Call.noConfusion
  | enter id options outcome =>
    simp only [System.enabled, Bool.and_eq_true, Option.any_eq_true] at henabled
    obtain ⟨-, operation, hid, -⟩ := henabled
    simp only [System.step, hid]
    exact @held_attempt s h ⟨id, options.attempts, options.delayMs, 0, .caught⟩ (hstarts id rfl)
      operation.signal outcome
  | resume index outcome =>
    obtain ⟨loop, operation, hindex, hid, -⟩ := withLoop_iff.mp henabled
    have hactive : loop.requestId ∈ s.engine.activeRequests := by
      apply hstarts
      simp only [System.starts, hindex, Option.map_some]
    simp only [System.step, hindex, hid]
    exact @held_attempt s h { loop with attempt := loop.attempt + 1 } hactive operation.signal outcome
  | deliver index =>
    obtain ⟨loop, operation, hindex, -, -⟩ := withLoop_iff.mp henabled
    simp only [System.step, hindex]
    exact h
  | reject index =>
    obtain ⟨loop, operation, hindex, hid, -⟩ := withLoop_iff.mp henabled
    simp only [System.step, hindex, hid]
    exact h
  | abandon index =>
    obtain ⟨loop, operation, hindex, -, -⟩ := withLoop_iff.mp henabled
    simp only [System.step, hindex]
    exact h
  | abort id => exact held_updateOperation h id _
  | passDeadline id => exact held_updateOperation h id _
  | fireTimer id => exact held_updateOperation h id _
  | settle p =>
    intro i hi hunsettled
    exact h i hi fun hmem => hunsettled (Finset.mem_insert_of_mem hmem)
  | failPipeline id cause => exact held_updateOperation h id _
  | completePipeline id => exact held_updateOperation h id _
  | conclude id failure =>
    rw [System.step]
    apply held_updateOperation
    cases failure with
    | none => exact hother (.endRequest id) fun _ => Call.noConfusion
    | some err => exact hother (.emitError err id) fun _ => Call.noConfusion
  | call call =>
    cases call with
    | settled callback =>
      apply held_perform h
      intro callback' heq
      cases heq
      -- the closure runs behind its promise, and `staysAccounted` bars the early one
      simp only [System.enabled, Bool.and_eq_true, decide_eq_true_eq] at henabled
      exact ⟨hstays, henabled.2⟩
    | _ => exact hother _ fun _ => Call.noConfusion

/-! ## Runs -/

theorem supervised_start {limits : PartialLimits} {engine : DataEngine}
    (h : DataEngine.new limits = .ok engine) : Supervised (System.start engine) := by
  refine ⟨consistent_new h, ?_, ?_⟩
  · intro id operation hid
    cases hid
  · intro loop hmem
    cases hmem

/-- In a run that takes neither way out, every unsettled invocation belongs to an
    active request in every state, and every call of a plugin is one for an active
    request. -/
theorem capacity_accounting {limits : PartialLimits} {engine : DataEngine}
    (h : DataEngine.new limits = .ok engine) {actions : List Action}
    (hlegal : controllers.Legal (System.start engine) actions)
    (hstays : controllers.Along (fun s action => s.staysAccounted action = true)
      (System.start engine) actions) :
    (∀ front, front <+: actions → (controllers.run (System.start engine) front).InvocationsActive) ∧
      controllers.Along System.StartsActive (System.start engine) actions := by
  let restricted := controllers.restrict fun s action => s.staysAccounted action = true
  -- both invariants along the run
  have hstep : ∀ s action, Supervised s ∧ Held s → restricted.enabled s action →
      Supervised (restricted.step s action) ∧ Held (restricted.step s action) := by
    intro s action hs henabled
    exact ⟨supervised_step hs.1 henabled.1, held_step hs.2 hs.1 henabled.1 henabled.2⟩
  have hnext : ∀ s action, Supervised s ∧ Held s → restricted.enabled s action →
      s.StartsActive action := by
    intro s action hs henabled
    exact startsActive_of_staysAccounted hs.1 henabled.1 henabled.2
  have hstart : Supervised (System.start engine) ∧ Held (System.start engine) := by
    refine ⟨supervised_start h, ?_⟩
    intro i hi
    cases hi
  have hrun := Machine.restrict_legal hlegal hstays
  constructor
  · intro front hfront i hi hunsettled
    have hheld := Machine.invariant hstep hstart (Machine.legal_of_front hfront hrun)
    exact (hheld.2 i hi hunsettled).1
  · exact Machine.restrict_along.mp (Machine.along_of_invariant hstep hnext hstart hrun)

/-- A retry while the pipeline runs, and then a failure: the second attempt keeps the
    slot. -/
theorem capacity_accounting_retry :
    ∃ engine : DataEngine, DataEngine.new (fun _ => none) = .ok engine ∧
      (controllers.run (System.start engine)
        [.begin .stream 7, .enter 7 ⟨2, 0⟩ (.returns 1), .settle 1, .call (.settled ⟨7, 0, 1⟩),
          .reject 0, .resume 0 (.returns 2), .failPipeline 7 .other,
          .conclude 7 (some .null)]).InvocationsActive := by
  refine ⟨_, rfl, ?_⟩
  have haccounting := @capacity_accounting (fun _ => none) _ rfl
    [.begin .stream 7, .enter 7 ⟨2, 0⟩ (.returns 1), .settle 1, .call (.settled ⟨7, 0, 1⟩),
      .reject 0, .resume 0 (.returns 2), .failPipeline 7 .other, .conclude 7 (some .null)]
    (by decide +kernel) (by decide +kernel)
  exact haccounting.1 _ (List.prefix_refl _)

/-- The destination of a stream fails while the first attempt is pending; the attempt
    then fails too, and the loop goes on for a request that has given up its slot. -/
theorem capacity_accounting_fails :
    ∃ engine : DataEngine, DataEngine.new (fun _ => none) = .ok engine ∧
      ∃ actions : List Action, controllers.Legal (System.start engine) actions ∧
        ¬ (controllers.run (System.start engine) actions).InvocationsActive ∧
        ¬ controllers.Along System.StartsActive (System.start engine) actions := by
  refine ⟨_, rfl, [.begin .stream 7, .enter 7 ⟨2, 0⟩ (.returns 1), .failPipeline 7 .other,
    .conclude 7 (some .null), .settle 1, .call (.settled ⟨7, 0, 1⟩), .reject 0,
    .resume 0 (.returns 2)],
    by decide +kernel, ?_, ?_⟩
  · intro hactive
    have hgone := hactive ⟨7, 2⟩ (by decide +kernel) (by decide +kernel)
    exact absurd hgone (by decide +kernel)
  · intro halong
    have hgone := halong.2.2.2.2.2.2.2.1 7 (by decide +kernel)
    exact absurd hgone (by decide +kernel)

end PipeX
