/-
  PipeX.Core.DataEngine.RequestStore

  The four collections of the request lifecycle over any sequence of calls.

  `lifecycle` is the machine of the calls.  `Consistent` is its invariant, kept
  by every call whatever the order (`consistent_perform`), and
  `requestStore_invariant` is what a user of the engine can rely on.
-/
import PipeX.Core.DataEngine.Engine
import PipeX.Lib.Transition

namespace PipeX

open DataEngine Transition

/-! ## Calls -/

/-- A call of the lifecycle; `settled` is the run of a closure of `trackWork`, whose
    promise has settled. -/
inductive Call where
  | startRequest (requestId : RequestId)
  | trackWork (requestId : RequestId) (pending : PromiseId)
  | settled (callback : SettledCallback)
  | releaseRequest (requestId : RequestId)
  | endRequest (requestId : RequestId)
  | emitError (err : Thrown) (requestId : RequestId)
  | use (plugin : PluginValue)
  | setLimits (limits : PartialLimits)

/-- The request that a call releases.  An `emitError` that throws releases none. -/
def Call.releases : Call → Option RequestId
  | .releaseRequest requestId => some requestId
  | .endRequest requestId => some requestId
  | .emitError err requestId =>
    match err.toError with
    | .ok _ => some requestId
    | .error _ => none
  | _ => none

theorem Call.releases_emitError {err : Thrown} {id id' : RequestId}
    (h : (Call.emitError err id).releases = some id') : id' = id := by
  rw [Call.releases] at h
  split at h
  · exact (Option.some.inj h).symm
  · cases h

/-- An engine, the requests it ever started, and those that were released at least
    once. -/
structure Session where
  engine : DataEngine
  started : Finset RequestId
  released : Finset RequestId

namespace Session

/-- A new engine. -/
def start (engine : DataEngine) : Session := ⟨engine, ∅, ∅⟩

/-- A release, by whichever method. -/
def release (s : Session) (requestId : RequestId) : Session :=
  { s with
    engine := s.engine.releaseRequest requestId
    released := insert requestId s.released }

def perform (s : Session) : Call → Session
  | .startRequest requestId =>
    match (startRequest requestId).run s.engine with
    | .ok _ engine => { s with engine := engine, started := insert requestId s.started }
    | .error _ engine => { s with engine := engine }
  | .trackWork requestId pending => { s with engine := s.engine.trackWork requestId pending }
  | .settled callback => { s with engine := s.engine.settled callback }
  | .releaseRequest requestId => s.release requestId
  | .endRequest requestId =>
    { s with
      engine := s.engine.endRequest requestId
      released := insert requestId s.released }
  | .emitError err requestId =>
    match s.engine.emitError err requestId with
    | .ok engine => { s with engine := engine, released := insert requestId s.released }
    | .error _ => s
  | .use plugin =>
    match (use plugin).run s.engine with
    | .ok _ engine => { s with engine := engine }
    | .error _ engine => { s with engine := engine }
  | .setLimits limits =>
    match (setLimits limits).run s.engine with
    | .ok _ engine => { s with engine := engine }
    | .error _ engine => { s with engine := engine }

/-- Ids are never drawn twice; the other calls are about requests that were
    started, and a closure runs once. -/
def enabled (s : Session) : Call → Bool
  | .startRequest requestId => decide (requestId ∉ s.started)
  | .trackWork requestId _ => decide (requestId ∈ s.started)
  | .settled callback => decide (callback ∈ s.engine.settledCallbacks)
  | .releaseRequest requestId => decide (requestId ∈ s.started)
  | .endRequest requestId => decide (requestId ∈ s.started)
  | .emitError _ requestId => decide (requestId ∈ s.started)
  | .use _ => true
  | .setLimits _ => true

end Session

/-- The lifecycle calls of an engine. -/
def lifecycle : Machine Session Call where
  enabled s call := s.enabled call = true
  step := Session.perform

instance (s : Session) (call : Call) : Decidable (lifecycle.enabled s call) :=
  inferInstanceAs (Decidable (s.enabled call = true))

/-! ## The invariant -/

/-- What the collections are to one another, and to what was called before. -/
structure Consistent (s : Session) : Prop where
  limits : s.engine.limits.Valid
  capacity : s.engine.activeRequests.card ≤ s.engine.limits.maxConcurrentOperations
  pipelines : ∀ id, s.engine.requestPipelines id =
    if id ∈ s.engine.activeRequests then some s.engine.pipeline else none
  nonempty : ∀ id work, s.engine.pendingWork id = some work → (s.engine.workSets id work).Nonempty
  callbacks : ∀ id work p, s.engine.pendingWork id = some work → p ∈ s.engine.workSets id work →
    ⟨id, work, p⟩ ∈ s.engine.settledCallbacks
  finished_pending : ∀ id ∈ s.engine.finishedRequests, ∃ work, s.engine.pendingWork id = some work
  finished_released : s.engine.finishedRequests ⊆ s.released
  released_started : s.released ⊆ s.started
  active_started : s.engine.activeRequests ⊆ s.started
  unreleased_active : ∀ id ∈ s.started, id ∉ s.released → id ∈ s.engine.activeRequests
  released_finished : ∀ id ∈ s.engine.activeRequests, id ∈ s.released →
    id ∈ s.engine.finishedRequests

theorem hasPendingWork_iff {s : Session} (h : Consistent s) (id : RequestId) :
    s.engine.hasPendingWork id = true ↔ ∃ work, s.engine.pendingWork id = some work := by
  rw [hasPendingWork]
  cases hpending : s.engine.pendingWork id with
  | none => simp
  | some work =>
    have hcard := Finset.card_pos.mpr (h.nonempty id work hpending)
    simp only [Option.any_some, decide_eq_true_eq, hcard, Option.some.injEq, exists_eq']

/-! ## One call -/

theorem pipelines_erase {active : Finset RequestId} {pipelines : RequestId → Option (List String)}
    {pipeline : List String} (h : ∀ id, pipelines id = if id ∈ active then some pipeline else none)
    (id id' : RequestId) :
    Function.update pipelines id none id' = if id' ∈ active.erase id then some pipeline else none := by
  by_cases heq : id' = id
  · rw [heq, Function.update_self, if_neg (Finset.notMem_erase id active)]
  · rw [Function.update_of_ne heq, h id']
    simp only [Finset.mem_erase, ne_eq, heq, not_false_eq_true, true_and]

theorem pipelines_insert {active : Finset RequestId} {pipelines : RequestId → Option (List String)}
    {pipeline : List String} (h : ∀ id, pipelines id = if id ∈ active then some pipeline else none)
    (id id' : RequestId) :
    Function.update pipelines id (some pipeline) id' =
      if id' ∈ insert id active then some pipeline else none := by
  by_cases heq : id' = id
  · rw [heq, Function.update_self, if_pos (Finset.mem_insert_self id active)]
  · rw [Function.update_of_ne heq, h id']
    simp only [Finset.mem_insert, heq, false_or]

theorem consistent_release {s : Session} (h : Consistent s) {id : RequestId}
    (hid : id ∈ s.started) : Consistent (s.release id) := by
  have hstarted : insert id s.released ⊆ s.started := Finset.insert_subset hid h.released_started
  cases hpending : s.engine.hasPendingWork id with
  | true =>
    rw [Session.release, releaseRequest_pending hpending]
    refine ⟨h.limits, h.capacity, h.pipelines, h.nonempty, h.callbacks, ?_, ?_, hstarted,
      h.active_started, ?_, ?_⟩
    · intro id' hid'
      rcases Finset.mem_insert.mp hid' with rfl | hid'
      · exact (hasPendingWork_iff h id').mp hpending
      · exact h.finished_pending id' hid'
    · exact Finset.insert_subset_insert id h.finished_released
    · intro id' hid' hreleased
      exact h.unreleased_active id' hid' fun hmem => hreleased (Finset.mem_insert_of_mem hmem)
    · intro id' hactive hreleased
      rcases Finset.mem_insert.mp hreleased with rfl | hreleased
      · exact Finset.mem_insert_self id' _
      · exact Finset.mem_insert_of_mem (h.released_finished id' hactive hreleased)
  | false =>
    rw [Session.release, releaseRequest_free hpending]
    refine ⟨h.limits, (Finset.card_erase_le).trans h.capacity, pipelines_erase h.pipelines id,
      h.nonempty, h.callbacks, ?_, ?_, hstarted, ?_, ?_, ?_⟩
    · intro id' hid'
      exact h.finished_pending id' (Finset.mem_of_mem_erase hid')
    · intro id' hid'
      exact Finset.mem_insert_of_mem (h.finished_released (Finset.mem_of_mem_erase hid'))
    · exact (Finset.erase_subset id _).trans h.active_started
    · intro id' hid' hreleased
      rw [Finset.mem_insert, not_or] at hreleased
      exact Finset.mem_erase.mpr ⟨hreleased.1, h.unreleased_active id' hid' hreleased.2⟩
    · intro id' hactive hreleased
      obtain ⟨hne, hactive⟩ := Finset.mem_erase.mp hactive
      have hreleased := (Finset.mem_insert.mp hreleased).resolve_left hne
      exact Finset.mem_erase.mpr ⟨hne, h.released_finished id' hactive hreleased⟩

/-- A call of `emitError` is a release, or throws and changes nothing. -/
theorem Session.perform_emitError (s : Session) (err : Thrown) (id : RequestId) :
    (Call.releases (.emitError err id) = some id ∧ s.perform (.emitError err id) = s.release id) ∨
      (Call.releases (.emitError err id) = none ∧ s.perform (.emitError err id) = s) := by
  rcases emitError_cases s.engine err id with ⟨error, herr, heq⟩ | ⟨thrown, herr, heq⟩
  · refine .inl ⟨?_, ?_⟩
    · simp only [Call.releases, herr]
    · simp only [Session.perform, heq, Session.release]
  · refine .inr ⟨?_, ?_⟩
    · simp only [Call.releases, herr]
    · simp only [Session.perform, heq]

/-- A call of `use` leaves everything but the plugins alone, -/
theorem Session.perform_use (s : Session) (plugin : PluginValue) :
    ∃ plugins, s.perform (.use plugin) = { s with engine := { s.engine with plugins := plugins } } := by
  rcases use_cases plugin s.engine with ⟨e, hrun⟩ | ⟨added, -, -, -, hrun⟩
  · exact ⟨s.engine.plugins, by simp only [Session.perform, hrun]⟩
  · exact ⟨s.engine.plugins ++ [added], by simp only [Session.perform, hrun]⟩

/-- one of `setLimits` everything but the limits, -/
theorem Session.perform_setLimits (s : Session) (limits : PartialLimits) :
    ∃ next, s.perform (.setLimits limits) = { s with engine := { s.engine with limits := next } } := by
  rcases setLimits_cases limits s.engine with ⟨e, hrun⟩ | ⟨next, -, -, hrun⟩
  · exact ⟨s.engine.limits, by simp only [Session.perform, hrun]⟩
  · exact ⟨next, by simp only [Session.perform, hrun]⟩

/-- and one of `startRequest` is refused or makes its request active. -/
theorem Session.perform_startRequest (s : Session) (id : RequestId) :
    s.perform (.startRequest id) = s ∨
      s.perform (.startRequest id) =
        { s with
          engine := { s.engine with
            activeRequests := insert id s.engine.activeRequests
            requestPipelines :=
              Function.update s.engine.requestPipelines id (some s.engine.pipeline) }
          started := insert id s.started } := by
  rcases startRequest_cases id s.engine with ⟨e, hrun, -⟩ | ⟨-, hrun⟩
  · exact .inl (by simp only [Session.perform, hrun])
  · exact .inr (by simp only [Session.perform, hrun])

theorem consistent_startRequest {s : Session} (h : Consistent s) {id : RequestId}
    (hid : id ∉ s.started) : Consistent (s.perform (.startRequest id)) := by
  rcases startRequest_cases id s.engine with ⟨e, hrun, -⟩ | ⟨hfree, hrun⟩
  · simp only [Session.perform, hrun]
    exact h
  · simp only [Session.perform, hrun]
    -- an id that was just drawn is in none of the collections
    have hreleased : id ∉ s.released := fun hmem => hid (h.released_started hmem)
    refine ⟨h.limits, (Finset.card_insert_le id _).trans hfree, pipelines_insert h.pipelines id,
      h.nonempty, h.callbacks, h.finished_pending, h.finished_released,
      h.released_started.trans (Finset.subset_insert id _), ?_, ?_, ?_⟩
    · exact Finset.insert_subset_insert id h.active_started
    · intro id' hid' hunreleased
      rcases Finset.mem_insert.mp hid' with rfl | hid'
      · exact Finset.mem_insert_self id' _
      · exact Finset.mem_insert_of_mem (h.unreleased_active id' hid' hunreleased)
    · intro id' hactive hreleased'
      rcases Finset.mem_insert.mp hactive with rfl | hactive
      · exact absurd hreleased' hreleased
      · exact h.released_finished id' hactive hreleased'

/-- Tracking adds to the set that the request waits for, which may be a new one. -/
theorem trackWork_spec (engine : DataEngine) (id : RequestId) (p : PromiseId) :
    ∃ work base created,
      engine.trackWork id p =
        { engine with
          pendingWork := Function.update engine.pendingWork id (some work)
          workSets := Function.update engine.workSets id
            (Function.update (engine.workSets id) work (insert p base))
          createdSets := created
          settledCallbacks := engine.settledCallbacks ++ [⟨id, work, p⟩] } ∧
      ((engine.pendingWork id = some work ∧ base = engine.workSets id work) ∨
        (engine.pendingWork id = none ∧ base = ∅)) := by
  cases hpending : engine.pendingWork id with
  | some work =>
    refine ⟨work, engine.workSets id work, engine.createdSets, ?_, .inl ⟨rfl, rfl⟩⟩
    have hsame : Function.update engine.pendingWork id (some work) = engine.pendingWork := by
      rw [← hpending, Function.update_eq_self]
    simp only [trackWork, workOf, hpending, hsame]
  | none =>
    refine ⟨engine.createdSets, ∅, engine.createdSets + 1, ?_, .inr ⟨rfl, rfl⟩⟩
    simp only [trackWork, workOf, hpending, Function.update_self, Function.update_idem]

theorem consistent_trackWork {s : Session} (h : Consistent s) (id : RequestId) (p : PromiseId) :
    Consistent (s.perform (.trackWork id p)) := by
  obtain ⟨work, base, created, heq, hbase⟩ := trackWork_spec s.engine id p
  simp only [Session.perform, heq]
  refine ⟨h.limits, h.capacity, h.pipelines, ?_, ?_, ?_, h.finished_released, h.released_started,
    h.active_started, h.unreleased_active, h.released_finished⟩
  · intro id' work' hpending
    by_cases hid : id' = id
    · subst hid
      simp only [Function.update_self, Option.some.injEq] at hpending ⊢
      rw [← hpending, Function.update_self]
      exact Finset.insert_nonempty p base
    · simp only [Function.update_of_ne hid] at hpending ⊢
      exact h.nonempty id' work' hpending
  · intro id' work' q hpending hq
    by_cases hid : id' = id
    · subst hid
      simp only [Function.update_self, Option.some.injEq] at hpending hq
      rw [← hpending, Function.update_self] at hq
      rw [← hpending]
      rcases Finset.mem_insert.mp hq with rfl | hq
      · exact List.mem_append_right _ (List.mem_singleton_self _)
      · rcases hbase with ⟨hwork, rfl⟩ | ⟨-, rfl⟩
        · exact List.mem_append_left _ (h.callbacks id' work q hwork hq)
        · exact absurd hq (Finset.notMem_empty q)
    · simp only [Function.update_of_ne hid] at hpending hq
      exact List.mem_append_left _ (h.callbacks id' work' q hpending hq)
  · intro id' hid'
    by_cases hid : id' = id
    · exact ⟨work, by simp only [hid, Function.update_self]⟩
    · simp only [Function.update_of_ne hid]
      exact h.finished_pending id' hid'

/-- The sets behind the run of a closure. -/
def settledSets (engine : DataEngine) (callback : SettledCallback) :
    RequestId → Nat → Finset PromiseId :=
  Function.update engine.workSets callback.requestId
    (Function.update (engine.workSets callback.requestId) callback.work
      ((engine.workSets callback.requestId callback.work).erase callback.pending))

theorem settledSets_self (engine : DataEngine) (callback : SettledCallback) :
    settledSets engine callback callback.requestId callback.work =
      (engine.workSets callback.requestId callback.work).erase callback.pending := by
  rw [settledSets, Function.update_self, Function.update_self]

theorem settledSets_of_ne (engine : DataEngine) {callback : SettledCallback} {id : RequestId}
    {work : Nat} (h : ¬ (id = callback.requestId ∧ work = callback.work)) :
    settledSets engine callback id work = engine.workSets id work := by
  rw [settledSets]
  by_cases hid : id = callback.requestId
  · have hwork : work ≠ callback.work := fun heq => h ⟨hid, heq⟩
    rw [hid, Function.update_self, Function.update_of_ne hwork]
  · rw [Function.update_of_ne hid]

/-- What remains in a set was there, and is not what the closure was made for. -/
theorem mem_settledSets {engine : DataEngine} {callback : SettledCallback} {id : RequestId}
    {work : Nat} {q : PromiseId} (hq : q ∈ settledSets engine callback id work) :
    q ∈ engine.workSets id work ∧ (⟨id, work, q⟩ : SettledCallback) ≠ callback := by
  by_cases hsame : id = callback.requestId ∧ work = callback.work
  · obtain ⟨rfl, rfl⟩ := hsame
    rw [settledSets_self] at hq
    obtain ⟨hne, hq⟩ := Finset.mem_erase.mp hq
    exact ⟨hq, fun heq => hne (congrArg SettledCallback.pending heq)⟩
  · rw [settledSets_of_ne engine hsame] at hq
    refine ⟨hq, fun heq => hsame ?_⟩
    rw [← heq]
    exact ⟨rfl, rfl⟩

/-- A closure takes its promise out of its set.  If that empties the set, the
    request waits for nothing more, and is gone if it has finished. -/
theorem settled_cases (engine : DataEngine) (callback : SettledCallback) :
    (((engine.workSets callback.requestId callback.work).erase callback.pending).Nonempty ∧
        engine.settled callback =
          { engine with
            workSets := settledSets engine callback
            settledCallbacks := engine.settledCallbacks.erase callback }) ∨
      ((engine.workSets callback.requestId callback.work).erase callback.pending = ∅ ∧
        callback.requestId ∉ engine.finishedRequests ∧
        engine.settled callback =
          { engine with
            pendingWork := Function.update engine.pendingWork callback.requestId none
            workSets := settledSets engine callback
            settledCallbacks := engine.settledCallbacks.erase callback }) ∨
      ((engine.workSets callback.requestId callback.work).erase callback.pending = ∅ ∧
        callback.requestId ∈ engine.finishedRequests ∧
        engine.settled callback =
          { engine with
            activeRequests := engine.activeRequests.erase callback.requestId
            pendingWork := Function.update engine.pendingWork callback.requestId none
            finishedRequests := engine.finishedRequests.erase callback.requestId
            requestPipelines := Function.update engine.requestPipelines callback.requestId none
            workSets := settledSets engine callback
            settledCallbacks := engine.settledCallbacks.erase callback }) := by
  by_cases hcard : ((engine.workSets callback.requestId callback.work).erase
      callback.pending).card = 0
  · have hempty := Finset.card_eq_zero.mp hcard
    right
    by_cases hfinished : callback.requestId ∈ engine.finishedRequests
    · refine .inr ⟨hempty, hfinished, ?_⟩
      simp only [settled, if_pos hcard, if_pos hfinished]
      rw [releaseRequest_free]
      · rfl
      · simp only [hasPendingWork, Function.update_self, Option.any_none]
    · refine .inl ⟨hempty, hfinished, ?_⟩
      simp only [settled, if_pos hcard, if_neg hfinished]
      rfl
  · left
    refine ⟨Finset.card_pos.mp (Nat.pos_of_ne_zero hcard), ?_⟩
    simp only [settled, if_neg hcard]
    rfl

theorem consistent_settled {s : Session} (h : Consistent s) (callback : SettledCallback) :
    Consistent (s.perform (.settled callback)) := by
  -- a set that is still waited for and is not the closure's own keeps its promises
  have hcallbacks : ∀ id work q, s.engine.pendingWork id = some work →
      q ∈ settledSets s.engine callback id work →
      ⟨id, work, q⟩ ∈ s.engine.settledCallbacks.erase callback := by
    intro id work q hpending hq
    obtain ⟨hq, hne⟩ := mem_settledSets hq
    exact (List.mem_erase_of_ne hne).mpr (h.callbacks id work q hpending hq)
  have hnonempty : ∀ id work, id ≠ callback.requestId → s.engine.pendingWork id = some work →
      (settledSets s.engine callback id work).Nonempty := by
    intro id work hid hpending
    rw [settledSets_of_ne s.engine fun hsame => hid hsame.1]
    exact h.nonempty id work hpending
  have hforgotten : ∀ id work,
      Function.update s.engine.pendingWork callback.requestId none id = some work →
      id ≠ callback.requestId ∧ s.engine.pendingWork id = some work := by
    intro id work hpending
    by_cases hid : id = callback.requestId
    · rw [hid, Function.update_self] at hpending
      cases hpending
    · rw [Function.update_of_ne hid] at hpending
      exact ⟨hid, hpending⟩
  simp only [Session.perform]
  rcases settled_cases s.engine callback with
    ⟨hremaining, heq⟩ | ⟨-, hfinished, heq⟩ | ⟨-, hfinished, heq⟩
  · rw [heq]
    refine ⟨h.limits, h.capacity, h.pipelines, ?_, hcallbacks, h.finished_pending,
      h.finished_released, h.released_started, h.active_started, h.unreleased_active,
      h.released_finished⟩
    intro id work hpending
    show (settledSets s.engine callback id work).Nonempty
    by_cases hsame : id = callback.requestId ∧ work = callback.work
    · obtain ⟨rfl, rfl⟩ := hsame
      rw [settledSets_self]
      exact hremaining
    · rw [settledSets_of_ne s.engine hsame]
      exact h.nonempty id work hpending
  · rw [heq]
    refine ⟨h.limits, h.capacity, h.pipelines, ?_, ?_, ?_, h.finished_released,
      h.released_started, h.active_started, h.unreleased_active, h.released_finished⟩
    · intro id work hpending
      obtain ⟨hid, hpending⟩ := hforgotten id work hpending
      exact hnonempty id work hid hpending
    · intro id work q hpending hq
      exact hcallbacks id work q (hforgotten id work hpending).2 hq
    · intro id hid
      have hne : id ≠ callback.requestId := fun heq => hfinished (heq ▸ hid)
      simp only [Function.update_of_ne hne]
      exact h.finished_pending id hid
  · rw [heq]
    have hreleased := h.finished_released hfinished
    refine ⟨h.limits, (Finset.card_erase_le).trans h.capacity, pipelines_erase h.pipelines _, ?_, ?_,
      ?_, ?_, h.released_started, (Finset.erase_subset _ _).trans h.active_started, ?_, ?_⟩
    · intro id work hpending
      obtain ⟨hid, hpending⟩ := hforgotten id work hpending
      exact hnonempty id work hid hpending
    · intro id work q hpending hq
      exact hcallbacks id work q (hforgotten id work hpending).2 hq
    · intro id hid
      obtain ⟨hne, hid⟩ := Finset.mem_erase.mp hid
      simp only [Function.update_of_ne hne]
      exact h.finished_pending id hid
    · exact (Finset.erase_subset _ _).trans h.finished_released
    · intro id hid hunreleased
      have hne : id ≠ callback.requestId := fun heq => hunreleased (heq ▸ hreleased)
      exact Finset.mem_erase.mpr ⟨hne, h.unreleased_active id hid hunreleased⟩
    · intro id hactive hid
      obtain ⟨hne, hactive⟩ := Finset.mem_erase.mp hactive
      exact Finset.mem_erase.mpr ⟨hne, h.released_finished id hactive hid⟩

theorem consistent_use {s : Session} (h : Consistent s) (plugin : PluginValue) :
    Consistent (s.perform (.use plugin)) := by
  rcases use_cases plugin s.engine with ⟨e, hrun⟩ | ⟨added, -, hidle, -, hrun⟩
  · simp only [Session.perform, hrun]
    exact h
  · simp only [Session.perform, hrun]
    -- without an active request there is no pipeline that could be outdated
    have hnone : ∀ id, s.engine.requestPipelines id = none := by
      intro id
      rw [h.pipelines id, hidle, if_neg (Finset.notMem_empty id)]
    refine ⟨h.limits, h.capacity, ?_, h.nonempty, h.callbacks, h.finished_pending,
      h.finished_released, h.released_started, h.active_started, h.unreleased_active,
      h.released_finished⟩
    intro id
    simp only [hnone id, hidle, Finset.notMem_empty, if_false]

theorem consistent_setLimits {s : Session} (h : Consistent s) (limits : PartialLimits) :
    Consistent (s.perform (.setLimits limits)) := by
  rcases setLimits_cases limits s.engine with ⟨e, hrun⟩ | ⟨next, hvalid, hidle, hrun⟩
  · simp only [Session.perform, hrun]
    exact h
  · simp only [Session.perform, hrun]
    refine ⟨hvalid, ?_, h.pipelines, h.nonempty, h.callbacks, h.finished_pending,
      h.finished_released, h.released_started, h.active_started, h.unreleased_active,
      h.released_finished⟩
    simp only [hidle, Finset.card_empty, Nat.zero_le]

/-- Every call keeps the collections consistent. -/
theorem consistent_perform {s : Session} {call : Call} (h : Consistent s)
    (henabled : lifecycle.enabled s call) : Consistent (lifecycle.step s call) := by
  cases call with
  | startRequest id => exact consistent_startRequest h (of_decide_eq_true henabled)
  | trackWork id p => exact consistent_trackWork h id p
  | settled callback => exact consistent_settled h callback
  | releaseRequest id => exact consistent_release h (of_decide_eq_true henabled)
  | endRequest id => exact consistent_release h (of_decide_eq_true henabled)
  | emitError err id =>
    rcases s.perform_emitError err id with ⟨-, heq⟩ | ⟨-, heq⟩
    · show Consistent (s.perform (.emitError err id))
      rw [heq]
      exact consistent_release h (of_decide_eq_true henabled)
    · show Consistent (s.perform (.emitError err id))
      rw [heq]
      exact h
  | use plugin => exact consistent_use h plugin
  | setLimits limits => exact consistent_setLimits h limits

/-! ## Any sequence of calls -/

theorem consistent_new {limits : PartialLimits} {engine : DataEngine}
    (h : DataEngine.new limits = .ok engine) : Consistent (Session.start engine) := by
  rw [DataEngine.new] at h
  cases hvalid : validateLimits (defaultLimits.override limits) with
  | error e =>
    rw [hvalid] at h
    cases h
  | ok u =>
    rw [hvalid] at h
    cases h
    refine ⟨(validateLimits_ok hvalid).2, Nat.zero_le _, fun _ => rfl, ?_, ?_, ?_, ?_, ?_, ?_, ?_, ?_⟩
    all_goals simp [Session.start]

/-- After any calls the collections are consistent. -/
theorem consistent_run {limits : PartialLimits} {engine : DataEngine}
    (h : DataEngine.new limits = .ok engine) {calls : List Call}
    (hlegal : lifecycle.Legal (Session.start engine) calls) :
    Consistent (lifecycle.run (Session.start engine) calls) :=
  Machine.invariant (fun _ _ hs henabled => consistent_perform hs henabled) (consistent_new h) hlegal

/-- Releasing changes neither plugins nor limits. -/
theorem releaseRequest_frame (engine : DataEngine) (id : RequestId) :
    (engine.releaseRequest id).plugins = engine.plugins ∧
      (engine.releaseRequest id).limits = engine.limits := by
  rw [releaseRequest]
  split <;> exact ⟨rfl, rfl⟩

/-- Nor does the run of a closure. -/
theorem settled_frame (engine : DataEngine) (callback : SettledCallback) :
    (engine.settled callback).plugins = engine.plugins ∧
      (engine.settled callback).limits = engine.limits := by
  rcases settled_cases engine callback with ⟨-, heq⟩ | ⟨-, -, heq⟩ | ⟨-, -, heq⟩
  all_goals
    rw [heq]
    exact ⟨rfl, rfl⟩

/-- A call that changes the plugins or the limits finds the engine idle. -/
theorem idle_of_changed {s : Session} {call : Call}
    (h : (s.perform call).engine.plugins ≠ s.engine.plugins ∨
      (s.perform call).engine.limits ≠ s.engine.limits) : s.engine.activeRequests = ∅ := by
  have habsurd : ∀ engine : DataEngine,
      engine.plugins = s.engine.plugins ∧ engine.limits = s.engine.limits →
      (engine.plugins ≠ s.engine.plugins ∨ engine.limits ≠ s.engine.limits) →
      s.engine.activeRequests = ∅ := by
    rintro engine ⟨hplugins, hlimits⟩ (hne | hne)
    · exact absurd hplugins hne
    · exact absurd hlimits hne
  cases call with
  | startRequest id =>
    rcases startRequest_cases id s.engine with ⟨e, hrun, -⟩ | ⟨-, hrun⟩
    · simp only [Session.perform, hrun] at h
      exact habsurd s.engine ⟨rfl, rfl⟩ h
    · simp only [Session.perform, hrun] at h
      exact habsurd s.engine ⟨rfl, rfl⟩ h
  | trackWork id p =>
    obtain ⟨work, base, created, heq, -⟩ := trackWork_spec s.engine id p
    simp only [Session.perform, heq] at h
    exact habsurd s.engine ⟨rfl, rfl⟩ h
  | settled callback => exact habsurd _ (settled_frame s.engine callback) h
  | releaseRequest id => exact habsurd _ (releaseRequest_frame s.engine id) h
  | endRequest id => exact habsurd _ (releaseRequest_frame s.engine id) h
  | emitError err id =>
    rcases s.perform_emitError err id with ⟨-, heq⟩ | ⟨-, heq⟩
    · rw [heq] at h
      exact habsurd _ (releaseRequest_frame s.engine id) h
    · rw [heq] at h
      exact habsurd s.engine ⟨rfl, rfl⟩ h
  | use plugin =>
    rcases use_cases plugin s.engine with ⟨e, hrun⟩ | ⟨added, -, hidle, -, -⟩
    · simp only [Session.perform, hrun] at h
      exact habsurd s.engine ⟨rfl, rfl⟩ h
    · exact hidle
  | setLimits limits =>
    rcases setLimits_cases limits s.engine with ⟨e, hrun⟩ | ⟨next, -, hidle, -⟩
    · simp only [Session.perform, hrun] at h
      exact habsurd s.engine ⟨rfl, rfl⟩ h
    · exact hidle

/-- When everything started was released and everything tracked has settled, then
    nothing is left. -/
theorem drained {s : Session} (h : Consistent s) (hreleased : s.started ⊆ s.released)
    (hsettled : s.engine.settledCallbacks = []) :
    s.engine.activeRequests = ∅ ∧ (∀ id, s.engine.pendingWork id = none) ∧
      s.engine.finishedRequests = ∅ ∧ ∀ id, s.engine.requestPipelines id = none := by
  have hpending : ∀ id, s.engine.pendingWork id = none := by
    intro id
    cases hid : s.engine.pendingWork id with
    | none => rfl
    | some work =>
      obtain ⟨p, hp⟩ := h.nonempty id work hid
      have hcallback := h.callbacks id work p hid hp
      rw [hsettled] at hcallback
      cases hcallback
  have hfinished : s.engine.finishedRequests = ∅ := by
    apply Finset.eq_empty_of_forall_notMem
    intro id hid
    obtain ⟨work, hwork⟩ := h.finished_pending id hid
    rw [hpending id] at hwork
    cases hwork
  have hactive : s.engine.activeRequests = ∅ := by
    apply Finset.eq_empty_of_forall_notMem
    intro id hid
    have := h.released_finished id hid (hreleased (h.active_started hid))
    rw [hfinished] at this
    exact Finset.notMem_empty id this
  refine ⟨hactive, hpending, hfinished, fun id => ?_⟩
  rw [h.pipelines id, hactive, if_neg (Finset.notMem_empty id)]

/-- The request store after any sequence of lifecycle calls. -/
theorem requestStore_invariant {limits : PartialLimits} {engine : DataEngine}
    (h : DataEngine.new limits = .ok engine) {calls : List Call}
    (hlegal : lifecycle.Legal (Session.start engine) calls) :
    let s := lifecycle.run (Session.start engine) calls
    s.engine.activeRequests.card ≤ s.engine.limits.maxConcurrentOperations ∧
      (∀ id, s.engine.requestPipelines id =
        if id ∈ s.engine.activeRequests then some s.engine.pipeline else none) ∧
      (∀ id ∈ s.engine.finishedRequests,
        ∃ work, s.engine.pendingWork id = some work ∧ (s.engine.workSets id work).Nonempty) ∧
      (∀ call, ((s.perform call).engine.plugins ≠ s.engine.plugins ∨
        (s.perform call).engine.limits ≠ s.engine.limits) → s.engine.activeRequests = ∅) ∧
      (∀ plugin e engine', (use plugin).run s.engine = .error e engine' → engine' = s.engine) ∧
      (∀ limits e engine', (setLimits limits).run s.engine = .error e engine' →
        engine' = s.engine) ∧
      (s.started ⊆ s.released → s.engine.settledCallbacks = [] →
        s.engine.activeRequests = ∅ ∧ (∀ id, s.engine.pendingWork id = none) ∧
          s.engine.finishedRequests = ∅ ∧ ∀ id, s.engine.requestPipelines id = none) := by
  have hs := consistent_run h hlegal
  refine ⟨hs.capacity, hs.pipelines, ?_, fun call => idle_of_changed, ?_, ?_, drained hs⟩
  · intro id hid
    obtain ⟨work, hwork⟩ := hs.finished_pending id hid
    exact ⟨work, hwork, hs.nonempty id work hwork⟩
  · intro plugin e engine' hrun
    rcases use_cases plugin (lifecycle.run (Session.start engine) calls).engine with
      ⟨e', hrun'⟩ | ⟨added, -, -, -, hrun'⟩
    · rw [hrun'] at hrun
      cases hrun
      rfl
    · rw [hrun'] at hrun
      cases hrun
  · intro limits' e engine' hrun
    rcases setLimits_cases limits' (lifecycle.run (Session.start engine) calls).engine with
      ⟨e', hrun'⟩ | ⟨next, -, -, hrun'⟩
    · rw [hrun'] at hrun
      cases hrun
      rfl
    · rw [hrun'] at hrun
      cases hrun

/-- `{ maxConcurrentOperations: 1 }`. -/
def oneSlot : PartialLimits := fun name =>
  if name = .maxConcurrentOperations then some (.integer 1) else none

/-- A request fails with a value that has no text, so that `emitError` throws; behind the
    next failure its work keeps the only slot from the next request until it settles. -/
theorem requestStore_invariant_one_slot :
    ∃ engine : DataEngine, DataEngine.new oneSlot = .ok engine ∧
      (lifecycle.run (Session.start engine)
        [.startRequest 7, .trackWork 7 1, .emitError (.unprintable .null) 7, .emitError .null 7,
          .startRequest 8, .releaseRequest 7, .settled ⟨7, 0, 1⟩, .startRequest 9,
          .endRequest 9]).engine.activeRequests = ∅ := by
  refine ⟨_, rfl, ?_⟩
  have hstore := @requestStore_invariant oneSlot _ rfl
    [.startRequest 7, .trackWork 7 1, .emitError (.unprintable .null) 7, .emitError .null 7,
      .startRequest 8, .releaseRequest 7, .settled ⟨7, 0, 1⟩, .startRequest 9,
      .endRequest 9] (by decide +kernel)
  exact (hstore.2.2.2.2.2.2 (by decide +kernel) (by decide +kernel)).1

end PipeX
