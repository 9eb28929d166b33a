/-
  PipeX.Core.DataEngine.Tracking

  Whether `trackWork` holds a request until all of its promises have settled, with
  the `then` callbacks run in microtask order.

  A closure deletes the entry of its request when its own set is empty, whichever
  set the entry holds by then.  Where a promise is tracked a second time, the second
  closure finds its set empty, and takes a newer set out of the map if work was
  tracked in between (`request_released_early`).  Without such a closure every
  request is held (`request_held`), and there is none if no promise is tracked again
  while it is waited for (`keepsEntries_of_trackedOnce`).
-/
import PipeX.Core.DataEngine.Accounting

namespace PipeX

open DataEngine Transition

/-! ## Promises and their reactions -/

/-- The calls of an engine among promises that settle. -/
structure Tracking where
  session : Session
  settled : Finset PromiseId
  /-- the closures of settled promises, in the order in which they will run -/
  jobs : List SettledCallback
  /-- the promises that were tracked for a request while it was active -/
  tracked : List Invocation

/-- A call of the engine, the settlement of a promise, or the next microtask. -/
inductive TrackingAction where
  | call (call : Call)
  | settle (p : PromiseId)
  | runJob

namespace Tracking

def start (engine : DataEngine) : Tracking := ⟨Session.start engine, ∅, [], []⟩

def engine (s : Tracking) : DataEngine := s.session.engine

def perform (s : Tracking) (call : Call) : Tracking :=
  { s with session := s.session.perform call }

def step (s : Tracking) : TrackingAction → Tracking
  | .call (.trackWork id p) =>
    let next := s.perform (.trackWork id p)
    { next with
      -- the reaction to a settled promise is a job at once
      jobs :=
        if p ∈ s.settled then
          s.jobs ++ next.engine.settledCallbacks.drop s.engine.settledCallbacks.length
        else
          s.jobs
      tracked := if id ∈ s.engine.activeRequests then ⟨id, p⟩ :: s.tracked else s.tracked }
  | .call call => s.perform call
  | .settle p =>
    { s with
      settled := insert p s.settled
      jobs := s.jobs ++ s.engine.settledCallbacks.filter fun callback => callback.pending = p }
  | .runJob =>
    match s.jobs with
    | [] => s
    | job :: jobs => { s.perform (.settled job) with jobs := jobs }

/-- Closures run as jobs only, and a promise settles once. -/
def enabled (s : Tracking) : TrackingAction → Bool
  | .call (.settled _) => false
  | .call call => s.session.enabled call
  | .settle p => decide (p ∉ s.settled)
  | .runJob => !s.jobs.isEmpty

/-- The next microtask takes no entry with unsettled promises out of the map. -/
def keepsEntry (s : Tracking) : TrackingAction → Bool
  | .runJob => (s.jobs.head?).all fun job => keepsPending s.settled s.engine job
  | _ => true

end Tracking

def tracking : Machine Tracking TrackingAction where
  enabled s action := s.enabled action = true
  step := Tracking.step

instance (s : Tracking) (action : TrackingAction) : Decidable (tracking.enabled s action) :=
  inferInstanceAs (Decidable (s.enabled action = true))

/-! ## One step -/

/-- Every unsettled promise is waited for, and every job is one of a settled promise. -/
structure Tracking.Waiting (s : Tracking) : Prop where
  jobs : ∀ job ∈ s.jobs, job.pending ∈ s.settled
  accounted : ∀ i ∈ s.tracked, i.pending ∉ s.settled → Accounted s.engine i

/-- `trackWork` leaves one closure, and its job where the promise has settled before. -/
theorem trackWork_closure (s : Tracking) (id : RequestId) (p : PromiseId) :
    ∃ work, (s.engine.trackWork id p).settledCallbacks =
        s.engine.settledCallbacks ++ [⟨id, work, p⟩] ∧
      (s.step (.call (.trackWork id p))).jobs =
        if p ∈ s.settled then s.jobs ++ [⟨id, work, p⟩] else s.jobs := by
  obtain ⟨work, base, created, heq, -⟩ := trackWork_spec s.engine id p
  have hcallbacks : (s.engine.trackWork id p).settledCallbacks =
      s.engine.settledCallbacks ++ [⟨id, work, p⟩] := by rw [heq]
  refine ⟨work, hcallbacks, ?_⟩
  have hdrop : ((s.perform (.trackWork id p)).engine.settledCallbacks).drop
      s.engine.settledCallbacks.length = [⟨id, work, p⟩] := by
    show (s.engine.trackWork id p).settledCallbacks.drop _ = _
    rw [hcallbacks, List.drop_left]
  simp only [Tracking.step, hdrop]

theorem waiting_perform {s : Tracking} (h : s.Waiting) {call : Call}
    (hcall : ∀ callback, call ≠ .settled callback) : (s.perform call).Waiting := by
  refine ⟨h.jobs, fun i hi hunsettled => ?_⟩
  exact accounted_perform (h.accounted i hi hunsettled) hunsettled fun callback heq =>
    absurd heq (hcall callback)

theorem waiting_trackWork {s : Tracking} (h : s.Waiting) (id : RequestId) (p : PromiseId) :
    (s.step (.call (.trackWork id p))).Waiting := by
  obtain ⟨work, -, hjobs⟩ := trackWork_closure s id p
  have hnext := @waiting_perform _ h (.trackWork id p) fun _ => Call.noConfusion
  refine ⟨fun job hjob => ?_, fun i hi hunsettled => ?_⟩
  · rw [hjobs] at hjob
    split at hjob
    · rename_i hsettled
      rcases List.mem_append.mp hjob with hold | hnew
      · exact h.jobs job hold
      · rw [List.mem_singleton.mp hnew]
        exact hsettled
    · exact h.jobs job hjob
  · -- the new promise is waited for where its request is active
    simp only [Tracking.step] at hi
    split at hi
    · rename_i hactive
      rcases List.mem_cons.mp hi with rfl | hold
      · exact accounted_trackWork_self hactive p
      · exact hnext.accounted i hold hunsettled
    · exact hnext.accounted i hi hunsettled

theorem waiting_runJob {s : Tracking} (h : s.Waiting) {job : SettledCallback}
    {jobs : List SettledCallback} (hjobs : s.jobs = job :: jobs)
    (hkeeps : keepsPending s.settled s.engine job = true) :
    ({ s.perform (.settled job) with jobs := jobs } : Tracking).Waiting := by
  have hsettled : job.pending ∈ s.settled := h.jobs job (hjobs ▸ List.mem_cons_self ..)
  refine ⟨fun job' hjob' => h.jobs job' (hjobs ▸ List.mem_cons_of_mem _ hjob'), ?_⟩
  intro i hi hunsettled
  exact accounted_settled (h.accounted i hi hunsettled) hkeeps hsettled hunsettled

theorem waiting_step {s : Tracking} {action : TrackingAction} (h : s.Waiting)
    (henabled : s.enabled action = true) (hkeeps : s.keepsEntry action = true) :
    (s.step action).Waiting := by
  cases action with
  | call call =>
    cases call with
    | trackWork id p => exact waiting_trackWork h id p
    | settled callback => cases henabled
    | _ => exact waiting_perform h fun _ => Call.noConfusion
  -- a promise that settles hands its closures to the queue
  | settle p =>
    refine ⟨fun job hjob => ?_, fun i hi hunsettled => ?_⟩
    · rcases List.mem_append.mp hjob with hold | hnew
      · exact Finset.mem_insert_of_mem (h.jobs job hold)
      · have hp : job.pending = p := of_decide_eq_true (List.mem_filter.mp hnew).2
        rw [hp]
        exact Finset.mem_insert_self p s.settled
    · exact h.accounted i hi fun hmem => hunsettled (Finset.mem_insert_of_mem hmem)
  | runJob =>
    cases hjobs : s.jobs with
    | nil =>
      rw [Tracking.enabled, hjobs] at henabled
      cases henabled
    | cons job jobs =>
      rw [Tracking.keepsEntry, hjobs] at hkeeps
      have hstep : s.step .runJob = { s.perform (.settled job) with jobs := jobs } := by
        rw [Tracking.step, hjobs]
      rw [hstep]
      exact waiting_runJob h hjobs (by simpa using hkeeps)

theorem waiting_start (engine : DataEngine) : (Tracking.start engine).Waiting :=
  ⟨nofun, nofun⟩

/-! ## Promises that are tracked once -/

/-- No promise is tracked for a request that still waits for it. -/
def Tracking.tracksOnce (s : Tracking) : TrackingAction → Bool
  | .call (.trackWork id p) =>
    s.engine.settledCallbacks.all fun callback =>
      decide (¬ (callback.requestId = id ∧ callback.pending = p))
  | _ => true

/-- Every closure that has not run is about a promise in the set of its entry, and no
    two are about the same. -/
structure Tracking.Current (s : Tracking) : Prop where
  entry : ∀ callback ∈ s.engine.settledCallbacks,
    s.engine.pendingWork callback.requestId = some callback.work ∧
      callback.pending ∈ s.engine.workSets callback.requestId callback.work
  once : s.engine.settledCallbacks.Nodup
  jobs : ∀ job ∈ s.jobs, job ∈ s.engine.settledCallbacks ∧ job.pending ∈ s.settled
  jobs_once : s.jobs.Nodup

/-- A call that touches neither sets nor closures. -/
theorem current_of_same {s s' : Tracking} (h : s.Current)
    (hpending : s'.engine.pendingWork = s.engine.pendingWork)
    (hsets : s'.engine.workSets = s.engine.workSets)
    (hcallbacks : s'.engine.settledCallbacks = s.engine.settledCallbacks)
    (hsettled : s'.settled = s.settled) (hjobs : s'.jobs = s.jobs) : s'.Current := by
  refine ⟨?_, ?_, ?_, ?_⟩
  · rw [hpending, hsets, hcallbacks]
    exact h.entry
  · rw [hcallbacks]
    exact h.once
  · rw [hjobs, hcallbacks, hsettled]
    exact h.jobs
  · rw [hjobs]
    exact h.jobs_once

/-- The new promise joins the set of the entry, or the entry and its set are new. -/
theorem entry_trackWork {s : Tracking} (h : s.Current) (id : RequestId) (p : PromiseId) :
    ∀ callback ∈ (s.engine.trackWork id p).settledCallbacks,
      (s.engine.trackWork id p).pendingWork callback.requestId = some callback.work ∧
        callback.pending ∈
          (s.engine.trackWork id p).workSets callback.requestId callback.work := by
  obtain ⟨work, base, created, heq, hbase⟩ := trackWork_spec s.engine id p
  intro callback hcallback
  rw [heq] at hcallback ⊢
  simp only at hcallback ⊢
  rcases List.mem_append.mp hcallback with hold | hlast
  · obtain ⟨hentry, hmem⟩ := h.entry callback hold
    by_cases hid : callback.requestId = id
    · -- the request waits for something, so its set is the entry
      rcases hbase with ⟨hwork, rfl⟩ | ⟨hnone, -⟩
      · have hsame : callback.work = work := by
          rw [hid, hwork] at hentry
          exact (Option.some.inj hentry).symm
        rw [hid, hsame] at hmem ⊢
        rw [Function.update_self, Function.update_self, Function.update_self]
        exact ⟨rfl, Finset.mem_insert_of_mem hmem⟩
      · rw [hid, hnone] at hentry
        cases hentry
    · rw [Function.update_of_ne hid, Function.update_of_ne hid]
      exact ⟨hentry, hmem⟩
  · rw [List.mem_singleton.mp hlast]
    simp only [Function.update_self]
    exact ⟨trivial, Finset.mem_insert_self p base⟩

theorem current_trackWork {s : Tracking} (h : s.Current) {id : RequestId} {p : PromiseId}
    (honce : s.tracksOnce (.call (.trackWork id p)) = true) :
    (s.step (.call (.trackWork id p))).Current := by
  obtain ⟨work, hcallbacks, hjobs⟩ := trackWork_closure s id p
  have hengine : (s.step (.call (.trackWork id p))).engine = s.engine.trackWork id p := rfl
  have hfresh : (⟨id, work, p⟩ : SettledCallback) ∉ s.engine.settledCallbacks := fun hmem =>
    of_decide_eq_true (List.all_eq_true.mp honce _ hmem) ⟨rfl, rfl⟩
  refine ⟨entry_trackWork h id p, ?_, ?_, ?_⟩
  · -- the closure is new, as its promise is
    rw [hengine, hcallbacks]
    exact List.concat_eq_append ▸ h.once.concat hfresh
  · intro job hjob
    rw [hengine, hcallbacks]
    rw [hjobs] at hjob
    have hold (hmem : job ∈ s.jobs) :
        job ∈ s.engine.settledCallbacks ++ [⟨id, work, p⟩] ∧ job.pending ∈ s.settled :=
      ⟨List.mem_append_left _ (h.jobs job hmem).1, (h.jobs job hmem).2⟩
    split at hjob
    · rename_i hsettled
      rcases List.mem_append.mp hjob with hmem | hlast
      · exact hold hmem
      · rw [List.mem_singleton.mp hlast]
        exact ⟨List.mem_append_right _ (List.mem_singleton_self _), hsettled⟩
    · exact hold hjob
  · rw [hjobs]
    split
    · exact List.concat_eq_append ▸ h.jobs_once.concat fun hmem => hfresh (h.jobs _ hmem).1
    · exact h.jobs_once

theorem current_settle {s : Tracking} (h : s.Current) {p : PromiseId} (hp : p ∉ s.settled) :
    (s.step (.settle p)).Current := by
  refine ⟨h.entry, h.once, ?_, ?_⟩
  · intro job hjob
    rcases List.mem_append.mp hjob with hold | hnew
    · exact ⟨(h.jobs job hold).1, Finset.mem_insert_of_mem (h.jobs job hold).2⟩
    · obtain ⟨hmem, hpending⟩ := List.mem_filter.mp hnew
      refine ⟨hmem, ?_⟩
      rw [of_decide_eq_true hpending]
      exact Finset.mem_insert_self p s.settled
  · -- the older jobs are about promises that had settled before
    refine List.nodup_append.mpr ⟨h.jobs_once, h.once.filter _, fun job hjob job' hjob' heq => ?_⟩
    have hpending : job'.pending = p := of_decide_eq_true (List.mem_filter.mp hjob').2
    apply hp
    rw [← hpending, ← heq]
    exact (h.jobs job hjob).2

theorem settled_callbacks (engine : DataEngine) (job : SettledCallback) :
    (engine.settled job).settledCallbacks = engine.settledCallbacks.erase job := by
  rcases settled_cases engine job with ⟨-, heq⟩ | ⟨-, -, heq⟩ | ⟨-, -, heq⟩
  all_goals rw [heq]

section Job

variable {s : Tracking} {job callback : SettledCallback}

/-- A closure of the same request is about another promise of the same set. -/
theorem pending_stays (h : s.Current) (hcallback : callback ∈ s.engine.settledCallbacks.erase job) :
    callback.pending ∈ settledSets s.engine job callback.requestId callback.work := by
  obtain ⟨hne, hold⟩ := (List.Nodup.mem_erase_iff h.once).mp hcallback
  obtain ⟨hentry, hset⟩ := h.entry callback hold
  by_cases hsame : callback.requestId = job.requestId ∧ callback.work = job.work
  · -- two closures of one set differ in their promises
    have hpending : callback.pending ≠ job.pending := by
      intro heq
      apply hne
      cases callback
      cases job
      simp only at hsame heq
      rw [hsame.1, hsame.2, heq]
    rw [hsame.1, hsame.2, settledSets_self]
    rw [hsame.1, hsame.2] at hset
    exact Finset.mem_erase.mpr ⟨hpending, hset⟩
  · rw [settledSets_of_ne s.engine hsame]
    exact hset

/-- So a set that is emptied was the last thing its request waited for. -/
theorem request_of_emptied (h : s.Current) (hjob : job ∈ s.engine.settledCallbacks)
    (hempty : (s.engine.workSets job.requestId job.work).erase job.pending = ∅)
    (hcallback : callback ∈ s.engine.settledCallbacks.erase job) :
    callback.requestId ≠ job.requestId := by
  intro hid
  have hset := pending_stays h hcallback
  have hold : callback ∈ s.engine.settledCallbacks := List.mem_of_mem_erase hcallback
  have hwork : callback.work = job.work := by
    have hentry := (h.entry callback hold).1
    rw [hid, (h.entry job hjob).1] at hentry
    exact (Option.some.inj hentry).symm
  rw [hid, hwork, settledSets_self, hempty] at hset
  exact Finset.notMem_empty _ hset

theorem entry_settled (h : s.Current) (hjob : job ∈ s.engine.settledCallbacks)
    (hcallback : callback ∈ s.engine.settledCallbacks.erase job) :
    (s.engine.settled job).pendingWork callback.requestId = some callback.work ∧
      callback.pending ∈ (s.engine.settled job).workSets callback.requestId callback.work := by
  have hentry := (h.entry callback (List.mem_of_mem_erase hcallback)).1
  have hstays := pending_stays h hcallback
  rcases settled_cases s.engine job with ⟨-, heq⟩ | ⟨hempty, -, heq⟩ | ⟨hempty, -, heq⟩
  · rw [heq]
    exact ⟨hentry, hstays⟩
  -- the entry that is deleted is another one
  all_goals
    rw [heq]
    refine ⟨?_, hstays⟩
    show Function.update s.engine.pendingWork job.requestId none callback.requestId = _
    rw [Function.update_of_ne (request_of_emptied h hjob hempty hcallback), hentry]

/-- The job leaves the other closures as they are. -/
theorem current_runJob (h : s.Current) {jobs : List SettledCallback} (hjobs : s.jobs = job :: jobs) :
    ({ s.perform (.settled job) with jobs := jobs } : Tracking).Current := by
  have hnodup : (job :: jobs).Nodup := hjobs ▸ h.jobs_once
  obtain ⟨hjob, hrest⟩ := List.nodup_cons.mp hnodup
  have hmem : job ∈ s.engine.settledCallbacks := (h.jobs job (hjobs ▸ List.mem_cons_self ..)).1
  refine ⟨fun callback hcallback => ?_, ?_, fun job' hjob' => ?_, hrest⟩
  · have hcallback : callback ∈ (s.engine.settled job).settledCallbacks := hcallback
    rw [settled_callbacks] at hcallback
    exact entry_settled h hmem hcallback
  · show (s.engine.settled job).settledCallbacks.Nodup
    rw [settled_callbacks]
    exact h.once.erase job
  · obtain ⟨hold, hsettled⟩ := h.jobs job' (hjobs ▸ List.mem_cons_of_mem _ hjob')
    refine ⟨?_, hsettled⟩
    show job' ∈ (s.engine.settled job).settledCallbacks
    rw [settled_callbacks]
    refine (List.Nodup.mem_erase_iff h.once).mpr ⟨?_, hold⟩
    rintro rfl
    exact hjob hjob'

end Job

/-- A call of the other methods changes neither sets nor closures. -/
theorem same_perform {s : Session} {call : Call} (htrack : ∀ id p, call ≠ .trackWork id p)
    (hsettled : ∀ callback, call ≠ .settled callback) :
    (s.perform call).engine.pendingWork = s.engine.pendingWork ∧
      (s.perform call).engine.workSets = s.engine.workSets ∧
      (s.perform call).engine.settledCallbacks = s.engine.settledCallbacks := by
  have hrelease : ∀ id, (s.engine.releaseRequest id).pendingWork = s.engine.pendingWork ∧
      (s.engine.releaseRequest id).workSets = s.engine.workSets ∧
      (s.engine.releaseRequest id).settledCallbacks = s.engine.settledCallbacks := by
    intro id
    cases hid : s.engine.hasPendingWork id with
    | true =>
      rw [releaseRequest_pending hid]
      exact ⟨rfl, rfl, rfl⟩
    | false =>
      rw [releaseRequest_free hid]
      exact ⟨rfl, rfl, rfl⟩
  cases call with
  | startRequest id =>
    rcases s.perform_startRequest id with heq | heq
    · rw [heq]
      exact ⟨rfl, rfl, rfl⟩
    · rw [heq]
      exact ⟨rfl, rfl, rfl⟩
  | trackWork id p => exact absurd rfl (htrack id p)
  | settled callback => exact absurd rfl (hsettled callback)
  | releaseRequest id => exact hrelease id
  | endRequest id => exact hrelease id
  | emitError err id =>
    rcases s.perform_emitError err id with ⟨-, heq⟩ | ⟨-, heq⟩
    · rw [heq]
      exact hrelease id
    · rw [heq]
      exact ⟨rfl, rfl, rfl⟩
  | use plugin =>
    obtain ⟨plugins, heq⟩ := s.perform_use plugin
    rw [heq]
    exact ⟨rfl, rfl, rfl⟩
  | setLimits limits =>
    obtain ⟨next, heq⟩ := s.perform_setLimits limits
    rw [heq]
    exact ⟨rfl, rfl, rfl⟩

theorem current_perform {s : Tracking} (h : s.Current) {call : Call}
    (htrack : ∀ id p, call ≠ .trackWork id p) (hsettled : ∀ callback, call ≠ .settled callback) :
    (s.perform call).Current := by
  obtain ⟨hpending, hsets, hcallbacks⟩ := same_perform (s := s.session) htrack hsettled
  exact current_of_same h hpending hsets hcallbacks rfl rfl

theorem current_step {s : Tracking} {action : TrackingAction} (h : s.Current)
    (henabled : s.enabled action = true) (honce : s.tracksOnce action = true) :
    (s.step action).Current := by
  cases action with
  | call call =>
    cases call with
    | trackWork id p => exact current_trackWork h honce
    | settled callback => cases henabled
    | _ => exact current_perform h (fun _ _ => Call.noConfusion) fun _ => Call.noConfusion
  | settle p => exact current_settle h (of_decide_eq_true henabled)
  | runJob =>
    cases hjobs : s.jobs with
    | nil =>
      rw [Tracking.enabled, hjobs] at henabled
      cases henabled
    | cons job jobs =>
      have hstep : s.step .runJob = { s.perform (.settled job) with jobs := jobs } := by
        rw [Tracking.step, hjobs]
      rw [hstep]
      exact current_runJob h hjobs

/-- Where no promise is tracked again, a job is about the set of its entry. -/
theorem keepsEntry_of_current {s : Tracking} (h : s.Current) (action : TrackingAction) :
    s.keepsEntry action = true := by
  cases action with
  | call call => rfl
  | settle p => rfl
  | runJob =>
    cases hjobs : s.jobs with
    | nil => rw [Tracking.keepsEntry, hjobs, List.head?_nil, Option.all_none]
    | cons job jobs =>
      -- the entry that the job finds is that of its own set
      have hmem : job ∈ s.engine.settledCallbacks := (h.jobs job (hjobs ▸ List.mem_cons_self ..)).1
      rw [Tracking.keepsEntry, hjobs, List.head?_cons, Option.all_some, keepsPending,
        (h.entry job hmem).1]
      exact decide_eq_true (.inl rfl)

/-! ## Runs -/

theorem current_start {limits : PartialLimits} {engine : DataEngine}
    (h : DataEngine.new limits = .ok engine) : (Tracking.start engine).Current := by
  have hcallbacks : engine.settledCallbacks = [] := by
    simp only [DataEngine.new, bind, Except.bind] at h
    split at h
    · cases h
    · cases h
      rfl
  have hnone : (Tracking.start engine).engine.settledCallbacks = [] := hcallbacks
  -- a new engine has no closures
  refine ⟨fun callback hcallback => ?_, ?_, fun job hjob => ?_, List.nodup_nil⟩
  · rw [hnone] at hcallback
    exact absurd hcallback List.not_mem_nil
  · rw [hnone]
    exact List.nodup_nil
  · exact absurd hjob List.not_mem_nil

/-- A run that tracks no promise again while it is waited for takes no entry with
    unsettled promises out of the map. -/
theorem keepsEntries_of_trackedOnce {limits : PartialLimits} {engine : DataEngine}
    (h : DataEngine.new limits = .ok engine) {actions : List TrackingAction}
    (hlegal : tracking.Legal (Tracking.start engine) actions)
    (honce : tracking.Along (fun s action => s.tracksOnce action = true) (Tracking.start engine)
      actions) :
    tracking.Along (fun s action => s.keepsEntry action = true) (Tracking.start engine) actions := by
  let restricted := tracking.restrict fun s action => s.tracksOnce action = true
  have hstep : ∀ s action, Tracking.Current s → restricted.enabled s action →
      Tracking.Current (restricted.step s action) :=
    fun s action hs henabled => current_step hs henabled.1 henabled.2
  have hnext : ∀ s action, Tracking.Current s → restricted.enabled s action →
      s.keepsEntry action = true := fun s action hs _ => keepsEntry_of_current hs action
  exact Machine.restrict_along.mp (Machine.along_of_invariant hstep hnext (current_start h)
    (Machine.restrict_legal hlegal honce))

/-- The request has its slot, and the plugins and the limits are frozen. -/
structure HoldsRequest (engine : DataEngine) (id : RequestId) : Prop where
  active : id ∈ engine.activeRequests
  use_refused : ∀ plugin, ∃ e, (use plugin).run engine = .error e engine
  setLimits_refused : ∀ limits, ∃ e, (setLimits limits).run engine = .error e engine

theorem holdsRequest_of_active {engine : DataEngine} {id : RequestId}
    (h : id ∈ engine.activeRequests) : HoldsRequest engine id := by
  have hbusy : engine.activeRequests ≠ ∅ := Finset.ne_empty_of_mem h
  refine ⟨h, fun plugin => ?_, fun limits => ?_⟩
  · -- `use` and `setLimits` are for idle engines
    rcases use_cases plugin engine with hrefused | ⟨added, -, hidle, -, -⟩
    · exact hrefused
    · exact absurd hidle hbusy
  · rcases setLimits_cases limits engine with hrefused | ⟨next, -, hidle, -⟩
    · exact hrefused
    · exact absurd hidle hbusy

/-- Every request holds while one of the promises that were tracked for it is
    unsettled. -/
def Tracking.HoldsRequests (s : Tracking) : Prop :=
  ∀ i ∈ s.tracked, i.pending ∉ s.settled → HoldsRequest s.engine i.requestId

theorem waiting_run {engine : DataEngine} {actions : List TrackingAction}
    (hlegal : tracking.Legal (Tracking.start engine) actions)
    (hkeeps : tracking.Along (fun s action => s.keepsEntry action = true) (Tracking.start engine)
      actions) {front : List TrackingAction} (hfront : front <+: actions) :
    (tracking.run (Tracking.start engine) front).Waiting := by
  let restricted := tracking.restrict fun s action => s.keepsEntry action = true
  have hstep : ∀ s action, Tracking.Waiting s → restricted.enabled s action →
      Tracking.Waiting (restricted.step s action) :=
    fun s action hs henabled => waiting_step hs henabled.1 henabled.2
  exact Machine.invariant hstep (waiting_start engine)
    (Machine.legal_of_front hfront (Machine.restrict_legal hlegal hkeeps))

/-- In a run in which no closure takes an entry with unsettled promises out of the map,
    every request is held in every state for as long as one of its promises is
    unsettled. -/
theorem request_held {engine : DataEngine} {actions : List TrackingAction}
    (hlegal : tracking.Legal (Tracking.start engine) actions)
    (hkeeps : tracking.Along (fun s action => s.keepsEntry action = true) (Tracking.start engine)
      actions) :
    ∀ front, front <+: actions → (tracking.run (Tracking.start engine) front).HoldsRequests := by
  intro front hfront i hi hunsettled
  have hwaiting := waiting_run hlegal hkeeps hfront
  exact holdsRequest_of_active (hwaiting.accounted i hi hunsettled).1

/-- A release that comes before the second of two promises has settled. -/
theorem request_held_released :
    ∃ engine : DataEngine, DataEngine.new (fun _ => none) = .ok engine ∧
      (tracking.run (Tracking.start engine)
        [.call (.startRequest 7), .call (.trackWork 7 1), .call (.trackWork 7 2), .settle 1,
          .call (.endRequest 7), .runJob]).HoldsRequests := by
  refine ⟨_, rfl, ?_⟩
  exact @request_held _
    [.call (.startRequest 7), .call (.trackWork 7 1), .call (.trackWork 7 2), .settle 1,
      .call (.endRequest 7), .runJob]
    (by decide +kernel) (by decide +kernel) _ (List.prefix_refl _)

/-- A promise is tracked twice, and another one between its two closures: the second
    closure takes it out of the map, and the release is not held up. -/
theorem request_released_early :
    ∃ engine : DataEngine, DataEngine.new (fun _ => none) = .ok engine ∧
      ∃ actions : List TrackingAction, tracking.Legal (Tracking.start engine) actions ∧
        ¬ (tracking.run (Tracking.start engine) actions).HoldsRequests := by
  refine ⟨_, rfl, [.call (.startRequest 7), .call (.trackWork 7 1), .call (.trackWork 7 1),
    .settle 1, .runJob, .call (.trackWork 7 2), .runJob, .call (.endRequest 7)],
    by decide +kernel, fun hholds => ?_⟩
  -- the request of promise 2 is no longer active
  have hgone := (hholds ⟨7, 2⟩ (by decide +kernel) (by decide +kernel)).active
  exact absurd hgone (by decide +kernel)

end PipeX
