/-
  PipeX.Plugin.Worker.Lifecycle

  What holds in every run of a worker pool.

  * `submit_cases` — a submission is turned away and leaves everything as it was, or
    it is admitted by a pool that is open and not full.
  * `Coherent` — the invariant, with one lemma for each kind of step.
  * `Graceful` — what an orderly `close` keeps until its promise is settled.
  * `lifecycle` — the two over whole runs.
-/
import PipeX.Lib.Outcome
import PipeX.Plugin.Worker.Pool

namespace PipeX.WorkerPool

open Transition Outcomes

variable {settings : WorkerPoolSettings} {pool : WorkerPool}

/-! ## Steps -/

/-- A submission is turned away, or the pool is open and has room for it. -/
theorem admission_cases (settings : WorkerPoolSettings) (pool : WorkerPool) (data : Bytes)
    (ctx : TaskContext) :
    (∃ e, (admission settings data ctx).run pool = .error e pool) ∨
    (pool.accepting = true ∧ pool.inFlight < settings.maxInFlight ∧
      (admission settings data ctx).run pool = .ok () { pool with inFlight := pool.inFlight + 1 }) := by
  cases hchecks : assertAdmissible settings pool data ctx with
  | error e =>
    refine .inl ⟨e, ?_⟩
    simp only [admission, EStateM.run_bind, EStateM.run_get, hchecks]
    rfl
  | ok u =>
    have hrun : (admission settings data ctx).run pool =
        .ok () { pool with inFlight := pool.inFlight + 1 } := by
      simp only [admission, EStateM.run_bind, EStateM.run_get, hchecks]
      rfl
    have hfatal : pool.fatalError = none := by
      cases hfatal : pool.fatalError with
      | none => rfl
      | some error => simp [assertAdmissible, hfatal, bind, Except.bind, throw, throwThe,
          MonadExceptOf.throw] at hchecks
    simp only [assertAdmissible, hfatal] at hchecks
    obtain ⟨haccepting, hchecks⟩ := guard_ok hchecks
    obtain ⟨-, hchecks⟩ := guard_ok hchecks
    obtain ⟨hroom, -⟩ := guard_ok hchecks
    exact .inr ⟨by simpa using haccepting, by omega, hrun⟩

/-- The three ways a submission can go. -/
theorem submit_cases (settings : WorkerPoolSettings) (pool : WorkerPool) (data : Bytes)
    (ctx : TaskContext) (exportName : Option String) :
    (∃ e, (submit settings data ctx exportName).run pool = .error e pool) ∨
    (pool.accepting = true ∧ pool.inFlight < settings.maxInFlight ∧
      ((∃ e, (submit settings data ctx exportName).run pool =
          .error e (leave { pool with inFlight := pool.inFlight + 1 })) ∨
        ∃ task, (submit settings data ctx exportName).run pool =
          .ok task { pool with
            inFlight := pool.inFlight + 1
            tasks := pool.tasks ++ [task]
            submitted := pool.submitted + 1 })) := by
  rcases admission_cases settings pool data ctx with ⟨e, he⟩ | ⟨haccepting, hroom, hadmitted⟩
  · exact .inl ⟨e, by simp only [submit, EStateM.run_bind, he]⟩
  refine .inr ⟨haccepting, hroom, ?_⟩
  simp only [submit, EStateM.run_bind, hadmitted]
  cases ctx.aborted with
  | some reason => exact .inl ⟨reason.error, rfl⟩
  | none => exact .inr ⟨_, rfl⟩

theorem settle_behind (settings : WorkerPoolSettings) (pool : WorkerPool) (task : Task)
    (answer : PoolAnswer) :
    behind ((settle settings task answer).run pool) =
      leave { pool with tasks := pool.tasks.erase task } := by
  simp only [settle, EStateM.run_bind, EStateM.run_modify]
  cases taskOutcome settings task answer with
  | ok output => rfl
  | error e => rfl

/-- The last task calls the waiter, if there is one. -/
theorem leave_cases (pool : WorkerPool) :
    (pool.inFlight = 1 ∧ pool.idleWaiters = true ∧
      leave pool = { pool with inFlight := 0, idleWaiters := false, closePromise := some .idle }) ∨
    (¬ (pool.inFlight = 1 ∧ pool.idleWaiters = true) ∧
      leave pool = { pool with inFlight := pool.inFlight - 1 }) := by
  by_cases hlast : pool.inFlight = 1 ∧ pool.idleWaiters = true
  · refine .inl ⟨hlast.1, hlast.2, ?_⟩
    simp [leave, hlast.1, hlast.2]
  · refine .inr ⟨hlast, ?_⟩
    have hstay : ¬ (pool.inFlight - 1 = 0 ∧ pool.idleWaiters = true) := by
      rintro ⟨hzero, hwaiter⟩
      exact hlast ⟨by omega, hwaiter⟩
    simp only [leave, if_neg hstay]

/-! ## The invariant -/

structure Coherent (settings : WorkerPoolSettings) (pool : WorkerPool) : Prop where
  counted : pool.inFlight = pool.tasks.length
  bounded : pool.inFlight ≤ settings.maxInFlight
  waiter : pool.idleWaiters = true → pool.closePromise = some .waiting
  closed : pool.closePromise ≠ none → pool.accepting = false
  fatal : pool.fatalError ≠ none → pool.accepting = false
  listening : pool.listening = false → pool.closePromise ≠ none
  calls : ∀ call ∈ pool.closeCalls, call = pool.closeOutcome

theorem coherent_new (settings : WorkerPoolSettings) : Coherent settings new where
  counted := rfl
  bounded := by
    show (0 : Int) ≤ settings.maxThreads + settings.plugin.maxQueue
    omega
  waiter h := by cases h
  closed h := absurd rfl h
  fatal h := absurd rfl h
  listening h := by cases h
  calls call h := by cases h

/-- The waiter is called without a promise being settled. -/
theorem Coherent.leave_after {tasks : List Task} (h : Coherent settings pool)
    (hcounted : pool.inFlight = tasks.length + 1) :
    Coherent settings (leave { pool with tasks }) := by
  have hbounded := h.bounded
  rcases leave_cases { pool with tasks } with ⟨hlast, hwaiter, heq⟩ | ⟨-, heq⟩
  · have hwaiting := h.waiter hwaiter
    rw [heq]
    refine ⟨?_, ?_, ?_, ?_, h.fatal, ?_, ?_⟩
    · show (0 : Int) = tasks.length
      have hlast : pool.inFlight = 1 := hlast
      omega
    · show (0 : Int) ≤ _
      have hlast : pool.inFlight = 1 := hlast
      omega
    · intro hw
      cases hw
    · intro _
      exact h.closed (by rw [hwaiting]; simp)
    · intro _
      simp
    · intro call hcall
      have hcall := h.calls call hcall
      rw [hcall, closeOutcome, hwaiting]
      rfl
  · rw [heq]
    refine ⟨?_, ?_, h.waiter, h.closed, h.fatal, h.listening, h.calls⟩
    · show pool.inFlight - 1 = tasks.length
      omega
    · show pool.inFlight - 1 ≤ _
      omega

/-- A call that was admitted and is over at once leaves no trace. -/
theorem Coherent.leave_admitted (h : Coherent settings pool) (haccepting : pool.accepting = true) :
    leave { pool with inFlight := pool.inFlight + 1 } = pool := by
  rcases leave_cases { pool with inFlight := pool.inFlight + 1 } with ⟨-, hwaiter, -⟩ | ⟨-, heq⟩
  -- only a pool that takes no more tasks has a waiter
  · have hclosed := h.closed (by rw [h.waiter hwaiter]; simp)
    rw [haccepting] at hclosed
    cases hclosed
  · rw [heq]
    simp only [Int.add_sub_cancel]

/-- A submission that is turned away, at whatever point, changes nothing. -/
theorem Coherent.submit_cases (h : Coherent settings pool) (data : Bytes) (ctx : TaskContext)
    (exportName : Option String) :
    (∃ e, (submit settings data ctx exportName).run pool = .error e pool) ∨
    (pool.inFlight < settings.maxInFlight ∧
      ∃ task, (submit settings data ctx exportName).run pool =
        .ok task { pool with
          inFlight := pool.inFlight + 1
          tasks := pool.tasks ++ [task]
          submitted := pool.submitted + 1 }) := by
  rcases WorkerPool.submit_cases settings pool data ctx exportName with
    hrejected | ⟨haccepting, hroom, ⟨e, he⟩ | hadmitted⟩
  · exact .inl hrejected
  · refine .inl ⟨e, ?_⟩
    rw [he, h.leave_admitted haccepting]
  · exact .inr ⟨hroom, hadmitted⟩

/-- Only while it waits for the tasks does `close` have a waiter. -/
theorem Coherent.no_waiter (h : Coherent settings pool) (hwaiting : pool.closePromise ≠ some .waiting) :
    pool.idleWaiters ≠ true :=
  fun hwaiter => hwaiting (h.waiter hwaiter)

section Progress

variable {now next : CloseProgress}

/-- `close` gets from one wait to the next, -/
theorem Coherent.advance (h : Coherent settings pool) (hnow : pool.closePromise = some now)
    (hwaiting : now ≠ .waiting) (hpending : now.outcome = none) (hnext : next.outcome = none) :
    Coherent settings { pool with closePromise := some next } := by
  have hwaiter := h.no_waiter fun heq => hwaiting (Option.some.inj (hnow.symm.trans heq))
  refine ⟨h.counted, h.bounded, fun hw => ?_, fun _ => h.closed (by simp [hnow]), h.fatal,
    fun _ => by simp, fun call hcall => ?_⟩
  · exact absurd hw hwaiter
  · rw [h.calls call hcall, closeOutcome, hnow]
    exact hpending.trans hnext.symm

/-- or to its end. -/
theorem Coherent.settleClose (h : Coherent settings pool) (hnow : pool.closePromise = some now)
    (hwaiting : now ≠ .waiting) (hpending : now.outcome = none) (outcome : Except JsError Unit) :
    Coherent settings (pool.settleClose outcome) := by
  have hwaiter := h.no_waiter fun heq => hwaiting (Option.some.inj (hnow.symm.trans heq))
  refine ⟨h.counted, h.bounded, fun hw => ?_, fun _ => h.closed (by simp [hnow]), h.fatal,
    fun _ => by simp [WorkerPool.settleClose], fun call hcall => ?_⟩
  · exact absurd hw hwaiter
  -- the calls of `close` that were waiting are told
  · obtain ⟨pending, hmem, rfl⟩ := List.mem_map.mp hcall
    have hnone : pending = none := by
      rw [h.calls pending hmem, closeOutcome, hnow]
      exact hpending
    rw [hnone]
    rfl

end Progress

theorem Coherent.submit (h : Coherent settings pool) (data : Bytes) (ctx : TaskContext)
    (exportName : Option String) :
    Coherent settings (step settings pool (.submit data ctx exportName)) := by
  simp only [step]
  rcases h.submit_cases data ctx exportName with ⟨e, he⟩ | ⟨hroom, task, htask⟩
  · rw [he]
    exact h
  · rw [htask]
    refine ⟨?_, ?_, h.waiter, h.closed, h.fatal, h.listening, h.calls⟩
    · show pool.inFlight + 1 = ((pool.tasks ++ [task]).length : Int)
      rw [h.counted, List.length_append]
      simp
    · show pool.inFlight + 1 ≤ settings.maxInFlight
      omega

theorem Coherent.close (h : Coherent settings pool) (force : Bool) :
    Coherent settings (pool.close force) := by
  cases hpromise : pool.closePromise with
  -- a later call is handed the same promise
  | some progress =>
    simp only [WorkerPool.close, hpromise]
    refine ⟨h.counted, h.bounded, ?_, ?_, h.fatal, ?_, ?_⟩
    · exact hpromise ▸ h.waiter
    · exact hpromise ▸ h.closed
    · exact hpromise ▸ h.listening
    · intro call hcall
      rcases List.mem_append.mp hcall with hold | hnew
      · exact (h.calls call hold).trans (by simp [closeOutcome, hpromise])
      · rw [List.mem_singleton.mp hnew]
        rfl
  | none =>
    have hpending : ∀ call ∈ pool.closeCalls ++ [none], call = none := by
      intro call hcall
      rcases List.mem_append.mp hcall with hold | hnew
      · rw [h.calls call hold, closeOutcome, hpromise]
        rfl
      · exact List.mem_singleton.mp hnew
    have hwaiter := h.no_waiter (by rw [hpromise]; simp)
    simp only [WorkerPool.close, hpromise]
    split
    -- forced, or with an error behind it: the pool is destroyed
    · refine ⟨h.counted, h.bounded, fun hw => absurd hw hwaiter, fun _ => rfl, fun _ => rfl,
        fun _ => ?_, hpending⟩
      simp
    · split
      -- tasks are under way
      · refine ⟨h.counted, h.bounded, fun _ => rfl, fun _ => rfl, fun _ => rfl, fun _ => ?_, hpending⟩
        simp
      · refine ⟨h.counted, h.bounded, fun hw => absurd hw hwaiter, fun _ => rfl, fun _ => rfl,
          fun _ => ?_, hpending⟩
        simp

theorem Coherent.onPoolError (h : Coherent settings pool) : Coherent settings pool.onPoolError := by
  simp only [WorkerPool.onPoolError]
  split
  · exact ⟨h.counted, h.bounded, h.waiter, fun _ => rfl, fun _ => rfl, h.listening, h.calls⟩
  · exact h

theorem coherent_step {action : Action} (h : Coherent settings pool)
    (henabled : (machine settings).enabled pool action) :
    Coherent settings ((machine settings).step pool action) := by
  cases action with
  | submit data ctx exportName => exact h.submit data ctx exportName
  | settle task answer =>
    have htask : task ∈ pool.tasks := henabled
    show Coherent settings (behind ((settle settings task answer).run pool))
    rw [settle_behind]
    apply h.leave_after
    rw [h.counted, List.length_erase_of_mem htask]
    -- the task leaves, and it was counted
    have hpos := List.length_pos_of_mem htask
    omega
  | close force => exact h.close force
  | closeDeadline =>
    -- the deadline ends the wait for the tasks
    have hwaiting : pool.closePromise = some .waiting := henabled
    refine ⟨h.counted, h.bounded, fun hw => ?_, fun _ => h.closed ?_, h.fatal, fun _ => ?_, ?_⟩
    · cases hw
    · simp [hwaiting]
    · simp [step, machine, WorkerPool.closeDeadline]
    · intro call hcall
      rw [h.calls call hcall, closeOutcome, hwaiting]
      rfl
  | resumeClose => exact h.advance henabled nofun rfl rfl
  | poolClosed result =>
    show Coherent settings (pool.poolClosed result)
    simp only [poolClosed]
    -- closed, or failed, or closed after one of its workers failed
    split
    · exact h.settleClose henabled nofun rfl _
    · exact h.advance henabled nofun rfl rfl
    · exact h.advance henabled nofun rfl rfl
  | poolDestroyed result =>
    show Coherent settings (pool.poolDestroyed result)
    -- it is destroyed for a close or for an error
    rcases henabled with hdestroying | ⟨error, hfailing⟩
    · simp only [poolDestroyed, hdestroying]
      split
      · exact h.settleClose hdestroying nofun rfl _
      · exact h.advance hdestroying nofun rfl rfl
      · exact h.settleClose hdestroying nofun rfl _
      · exact h
    · simp only [poolDestroyed, hfailing]
      exact h.settleClose hfailing nofun rfl _
  | poolError => exact h.onPoolError

/-! ## A pool that takes no more tasks -/

def Action.IsClose : Action → Prop
  | .close _ => True
  | _ => False

/-- The actions behind which no task is admitted. -/
def Action.Stops : Action → Prop
  | .close _ => True
  | .poolError => True
  | _ => False

/-- A submission to a stopped pool changes nothing. -/
theorem submit_stopped (hstopped : pool.accepting = false) (data : Bytes) (ctx : TaskContext)
    (exportName : Option String) :
    ∃ e, (submit settings data ctx exportName).run pool = .error e pool := by
  rcases submit_cases settings pool data ctx exportName with hrejected | ⟨haccepting, -, -⟩
  · exact hrejected
  · rw [hstopped] at haccepting
    cases haccepting

theorem leave_accepting (pool : WorkerPool) : (leave pool).accepting = pool.accepting := by
  rcases leave_cases pool with ⟨-, -, heq⟩ | ⟨-, heq⟩
  · rw [heq]
  · rw [heq]

theorem stopped_step (action : Action) (hstopped : pool.accepting = false) :
    (step settings pool action).accepting = false := by
  cases action with
  | submit data ctx exportName =>
    -- a task is refused
    obtain ⟨e, he⟩ := @submit_stopped settings pool hstopped data ctx exportName
    simp only [step, he]
    exact hstopped
  | settle task answer =>
    simp only [step, settle_behind, leave_accepting]
    exact hstopped
  | close force =>
    simp only [step, WorkerPool.close]
    split
    · exact hstopped
    · split
      · rfl
      · split
        · rfl
        · rfl
  | closeDeadline => exact hstopped
  | resumeClose => exact hstopped
  | poolClosed result =>
    simp only [step, poolClosed]
    split
    all_goals exact hstopped
  | poolDestroyed result =>
    simp only [step, poolDestroyed]
    split
    all_goals exact hstopped
  | poolError =>
    simp only [step, WorkerPool.onPoolError]
    split
    · rfl
    · exact hstopped

theorem step_stops {action : Action} (h : Coherent settings pool) (hstops : action.Stops) :
    (step settings pool action).accepting = false := by
  cases action with
  | close force =>
    cases hpromise : pool.closePromise with
    | some progress =>
      exact stopped_step (.close force) (h.closed (by simp [hpromise]))
    | none =>
      simp only [step, WorkerPool.close, hpromise]
      split
      · rfl
      · split
        · rfl
        · rfl
  | poolError =>
    simp only [step, WorkerPool.onPoolError]
    split
    · rfl
    · rename_i hlate
      -- an error that is not taken comes behind another one, or behind the end of `close`
      by_cases hlistening : pool.listening = true
      · exact h.fatal fun hnone => hlate ⟨hlistening, hnone⟩
      · exact h.closed (h.listening (by simpa using hlistening))
  | _ => exact absurd hstops id

/-! ## One outcome -/

/-- What `#closePromise` has been settled with it stays settled with. -/
theorem closeOutcome_step {action : Action} (h : Coherent settings pool)
    (henabled : enabled pool action) {outcome : Except JsError Unit}
    (hsettled : pool.closeOutcome = some outcome) :
    (step settings pool action).closeOutcome = some outcome := by
  obtain ⟨progress, hprogress, hout⟩ := Option.bind_eq_some_iff.mp hsettled
  have hpromise : pool.closePromise = some (.settled outcome) := by
    match progress, hout with
    | .settled _, hout =>
      cases hout
      exact hprogress
  -- so the pool is stopped, nothing waits, and none of the steps of `close` is enabled
  have hstopped := h.closed (by simp [hpromise])
  have hwaiter := h.no_waiter (by simp [hpromise])
  cases action with
  | submit data ctx exportName =>
    obtain ⟨e, he⟩ := @submit_stopped settings pool hstopped data ctx exportName
    simp only [step, he]
    exact hsettled
  | settle task answer =>
    simp only [step, settle_behind]
    rcases leave_cases { pool with tasks := pool.tasks.erase task } with ⟨-, hw, -⟩ | ⟨-, heq⟩
    · exact absurd hw hwaiter
    · rw [heq]
      exact hsettled
  | close force =>
    simp only [step, WorkerPool.close, hpromise]
    rfl
  | closeDeadline =>
    rw [enabled, hpromise] at henabled
    cases henabled
  | resumeClose =>
    rw [enabled, hpromise] at henabled
    cases henabled
  | poolClosed result =>
    rw [enabled, hpromise] at henabled
    cases henabled
  | poolDestroyed result =>
    simp only [step, poolDestroyed, hpromise]
    exact hsettled
  | poolError =>
    simp only [step, WorkerPool.onPoolError]
    split
    all_goals exact hsettled

/-! ## An orderly end -/

/-- Where `close` is, no task may be left. -/
def CloseProgress.Drained : CloseProgress → Prop
  | .idle => True
  | .closing => True
  | .settled outcome => outcome = .ok ()
  | _ => False

/-- A pool that has been closed without `force`, and without an error. -/
structure Graceful (pool : WorkerPool) : Prop where
  stopped : pool.accepting = false
  sound : pool.fatalError = none
  progress : ∃ now, pool.closePromise = some now ∧ now ≠ .destroying ∧
    (CloseProgress.Drained now → pool.tasks = [])

theorem graceful_close (h : Coherent settings pool) (hopen : pool.closePromise = none)
    (hsound : pool.fatalError = none) : Graceful (pool.close false) := by
  have hcounted := h.counted
  simp only [close, hopen, hsound, Option.isSome_none, Bool.false_eq_true, or_self, if_false]
  split
  · exact ⟨rfl, rfl, .waiting, rfl, nofun, fun hdrained => absurd hdrained id⟩
  · rename_i hidle
    refine ⟨rfl, rfl, .closing, rfl, nofun, fun _ => ?_⟩
    have hidle : ¬ pool.inFlight > 0 := hidle
    show pool.tasks = []
    exact List.length_eq_zero_iff.mp (by omega)

theorem graceful_step {action : Action} (h : Coherent settings pool) (hgraceful : Graceful pool)
    (henabled : enabled pool action) (hsound : action ≠ .poolError) :
    Graceful (step settings pool action) := by
  obtain ⟨hstopped, hfatal, now, hnow, hforced, hdrained⟩ := hgraceful
  cases action with
  | submit data ctx exportName =>
    obtain ⟨e, he⟩ := @submit_stopped settings pool hstopped data ctx exportName
    simp only [step, he]
    exact ⟨hstopped, hfatal, now, hnow, hforced, hdrained⟩
  | settle task answer =>
    have htask : task ∈ pool.tasks := henabled
    have hcounted := h.counted
    simp only [step, settle_behind]
    rcases leave_cases { pool with tasks := pool.tasks.erase task } with
      ⟨hlast, hwaiter, heq⟩ | ⟨-, heq⟩
    · -- the last task calls the waiter
      rw [heq]
      refine ⟨hstopped, hfatal, .idle, rfl, nofun, fun _ => ?_⟩
      have hlast : pool.inFlight = 1 := hlast
      have hlength := List.length_erase_of_mem htask
      show pool.tasks.erase task = []
      exact List.length_eq_zero_iff.mp (by omega)
    · rw [heq]
      refine ⟨hstopped, hfatal, now, hnow, hforced, fun hd => ?_⟩
      rw [hdrained hd] at htask
      cases htask
  | close force =>
    simp only [step, close, hnow]
    exact ⟨hstopped, hfatal, now, rfl, hforced, hdrained⟩
  | closeDeadline => exact ⟨hstopped, hfatal, _, rfl, nofun, fun hd => absurd hd id⟩
  | resumeClose =>
    have hidle : pool.closePromise = some .idle := henabled
    rw [hnow] at hidle
    cases hidle
    exact ⟨hstopped, hfatal, .closing, rfl, nofun, fun _ => hdrained trivial⟩
  | poolClosed result =>
    have hclosing : pool.closePromise = some .closing := henabled
    rw [hnow] at hclosing
    cases hclosing
    -- an error of `pool.close()` leaves the orderly way
    have hempty := hdrained trivial
    cases result with
    | ok u =>
      simp only [step, poolClosed, hfatal]
      exact ⟨hstopped, hfatal, _, rfl, nofun, fun _ => hempty⟩
    | error e =>
      simp only [step, poolClosed]
      exact ⟨hstopped, hfatal, _, rfl, nofun, fun hd => absurd hd id⟩
  | poolDestroyed result =>
    rcases henabled with hdestroying | ⟨error, hfailing⟩
    · rw [hnow] at hdestroying
      exact absurd (Option.some.inj hdestroying) hforced
    · simp only [step, poolDestroyed, hfailing]
      exact ⟨hstopped, hfatal, _, rfl, nofun, fun hd => by cases hd⟩
  | poolError => exact absurd rfl hsound

/-! ## Whole runs -/

theorem coherent_run {actions : List Action} (hlegal : (machine settings).Legal new actions) :
    Coherent settings ((machine settings).run new actions) :=
  Machine.invariant (fun _ _ h henabled => coherent_step h henabled) (coherent_new settings) hlegal

theorem stopped_run {actions : List Action} (hlegal : (machine settings).Legal new actions)
    {action : Action} (haction : action ∈ actions) (hstops : action.Stops) :
    ((machine settings).run new actions).accepting = false := by
  obtain ⟨before, after, rfl⟩ := List.append_of_mem haction
  obtain ⟨hbefore, -, hafter⟩ := Machine.along_append.mp hlegal
  have hstopped := step_stops (coherent_run hbefore) hstops
  rw [Machine.run_append, Machine.run_cons]
  exact Machine.invariant (P := fun pool => pool.accepting = false)
    (fun _ action h _ => stopped_step action h) hstopped hafter

theorem closeOutcome_run (h : Coherent settings pool) {later : List Action}
    (hlegal : (machine settings).Legal pool later) {outcome : Except JsError Unit}
    (hsettled : pool.closeOutcome = some outcome) :
    ((machine settings).run pool later).closeOutcome = some outcome := by
  have hstep : ∀ pool action,
      Coherent settings pool ∧ pool.closeOutcome = some outcome → enabled pool action →
      Coherent settings (step settings pool action) ∧
        (step settings pool action).closeOutcome = some outcome :=
    fun pool action h henabled =>
      ⟨coherent_step h.1 henabled, closeOutcome_step h.1 henabled h.2⟩
  exact (Machine.invariant (m := machine settings) hstep ⟨h, hsettled⟩ hlegal).2

/-- Only `close` makes a promise, and only an error of the pool is fatal. -/
theorem open_step {action : Action} (h : Coherent settings pool) (hopen : pool.closePromise = none)
    (hsound : pool.fatalError = none) (henabled : enabled pool action) (hclose : ¬ action.IsClose)
    (hpool : action ≠ .poolError) :
    (step settings pool action).closePromise = none ∧
      (step settings pool action).fatalError = none := by
  cases action with
  | submit data ctx exportName =>
    simp only [step]
    rcases h.submit_cases data ctx exportName with ⟨e, he⟩ | ⟨-, task, htask⟩
    · rw [he]
      exact ⟨hopen, hsound⟩
    · rw [htask]
      exact ⟨hopen, hsound⟩
  | settle task answer =>
    simp only [step, settle_behind]
    rcases leave_cases { pool with tasks := pool.tasks.erase task } with ⟨-, hwaiter, -⟩ | ⟨-, heq⟩
    · have hwaiting := h.waiter hwaiter
      rw [hopen] at hwaiting
      cases hwaiting
    · rw [heq]
      exact ⟨hopen, hsound⟩
  | close force => exact absurd trivial hclose
  | poolError => exact absurd rfl hpool
  | _ => simp [enabled, hopen] at henabled

/-- From the first `close` on, an orderly end stays one. -/
theorem graceful_run {before after : List Action}
    (hlegal : (machine settings).Legal new (before ++ .close false :: after))
    (hclose : ∀ action ∈ before, ¬ action.IsClose)
    (hsound : .poolError ∉ before ++ .close false :: after) :
    Graceful ((machine settings).run new (before ++ .close false :: after)) := by
  obtain ⟨hbefore, -, hafter⟩ := Machine.along_append.mp hlegal
  have hfront : ∀ action ∈ before, ¬ action.IsClose ∧ action ≠ .poolError := by
    intro action haction
    refine ⟨hclose action haction, ?_⟩
    rintro rfl
    exact hsound (List.mem_append_left _ haction)
  have hbehind : ∀ action ∈ after, action ≠ .poolError := by
    rintro _ haction rfl
    exact hsound (List.mem_append_right _ (List.mem_cons_of_mem _ haction))
  -- up to the first `close`
  obtain ⟨hcoherent, hopen, hfatal⟩ := Machine.invariant_of_forall (m := machine settings)
    (P := fun pool =>
      Coherent settings pool ∧ pool.closePromise = none ∧ pool.fatalError = none)
    (fun _ _ h henabled hC =>
      ⟨coherent_step h.1 henabled, open_step h.1 h.2.1 h.2.2 henabled hC.1 hC.2⟩)
    ⟨coherent_new settings, rfl, rfl⟩ hbefore hfront
  have hclosed := graceful_close hcoherent hopen hfatal
  rw [Machine.run_append, Machine.run_cons]
  -- and behind it
  exact (Machine.invariant_of_forall (m := machine settings)
    (P := fun pool => Coherent settings pool ∧ Graceful pool)
    (fun _ _ h henabled hC =>
      ⟨coherent_step h.1 henabled, graceful_step h.1 h.2 henabled hC⟩)
    ⟨hcoherent.close false, hclosed⟩ hafter hbehind).2

/-- In every run: what is counted are the tasks that are not over, and they are no more
    than the pool has room for; a submission that is turned away changes nothing, and
    behind the first `close` or error every submission is; the calls of `close` come to
    one outcome; and an orderly `close` resolves when no task is left. -/
theorem lifecycle (settings : WorkerPoolSettings) {actions : List Action}
    (hlegal : (machine settings).Legal new actions) :
    let pool := (machine settings).run new actions
    (pool.inFlight = pool.tasks.length ∧ 0 ≤ pool.inFlight ∧
      pool.inFlight ≤ settings.maxThreads + settings.plugin.maxQueue) ∧
    (∀ data ctx exportName e pool',
      (submit settings data ctx exportName).run pool = .error e pool' → pool' = pool) ∧
    ((∃ action ∈ actions, action.Stops) → ∀ data ctx exportName,
      ∃ e, (submit settings data ctx exportName).run pool = .error e pool) ∧
    ((∀ call ∈ pool.closeCalls, call = pool.closeOutcome) ∧
      ∀ later outcome, (machine settings).Legal pool later → pool.closeOutcome = some outcome →
        ((machine settings).run pool later).closeOutcome = some outcome) ∧
    ∀ before after, actions = before ++ .close false :: after →
      (∀ action ∈ before, ¬ action.IsClose) → .poolError ∉ actions →
      pool.closeOutcome = some (.ok ()) → pool.tasks = [] := by
  intro pool
  have h : Coherent settings pool := coherent_run hlegal
  refine ⟨⟨h.counted, ?_, h.bounded⟩, ?_, ?_, ⟨h.calls, ?_⟩, ?_⟩
  · rw [h.counted]
    exact Int.natCast_nonneg _
  · intro data ctx exportName e pool' hrun
    rcases h.submit_cases data ctx exportName with ⟨e', he⟩ | ⟨-, task, htask⟩
    · rw [he] at hrun
      cases hrun
      rfl
    · rw [htask] at hrun
      cases hrun
  · rintro ⟨action, haction, hstops⟩ data ctx exportName
    exact submit_stopped (stopped_run hlegal haction hstops) data ctx exportName
  · intro later outcome hlater hsettled
    exact closeOutcome_run h hlater hsettled
  · rintro before after rfl hclose hsound hsettled
    -- the promise has been resolved, which it only is once the pool is drained
    obtain ⟨-, -, now, hnow, -, hdrained⟩ := graceful_run hlegal hclose hsound
    apply hdrained
    have hnow : pool.closePromise = some now := hnow
    rw [closeOutcome, hnow] at hsettled
    match now, hsettled with
    | .settled outcome, hsettled =>
      cases hsettled
      rfl

/-- One thread and one place in the queue. -/
def smallPool : WorkerPoolSettings := ⟨⟨none, none, 1, fun _ data => .ok data⟩, 1, none⟩

/-- A task is under way when the pool is closed, and another one comes too late. -/
def drainingRun : List Action :=
  [.submit [1] ⟨none, none⟩ none, .close false, .submit [2] ⟨none, none⟩ none,
    .settle ⟨0, none, none⟩ ⟨none, .ok (some [1])⟩, .resumeClose, .poolClosed (.ok ())]

/-- Its `close` resolves, and no task is left. -/
theorem lifecycle_draining :
    ((machine smallPool).run new drainingRun).closeOutcome = some (.ok ()) ∧
      ((machine smallPool).run new drainingRun).tasks = [] := by
  have hlegal : (machine smallPool).Legal new drainingRun :=
    ⟨trivial, trivial, trivial, List.mem_singleton.mpr rfl, rfl, rfl, trivial⟩
  have hopen : ∀ action ∈ [Action.submit [1] ⟨none, none⟩ none], ¬ action.IsClose := by
    intro action haction
    rw [List.mem_singleton.mp haction]
    exact id
  have hsound : Action.poolError ∉ drainingRun := by
    simp [drainingRun]
  obtain ⟨-, -, -, -, hdrained⟩ := lifecycle smallPool hlegal
  exact ⟨rfl, hdrained _ _ rfl hopen hsound rfl⟩

end PipeX.WorkerPool
