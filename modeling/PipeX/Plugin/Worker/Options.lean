/-
  PipeX.Plugin.Worker.Options

  The constructor of `WorkerPoolPlugin` (`src/plugin/worker.ts`): its options, and what
  its checks are worth to the pool behind it.

  * `construct_ok_iff` — the options that are accepted, and the settings they make.
  * `constructed_admits` — a pool made from them turns a task away for three reasons only.
-/
import PipeX.Core.DataEngine.Engine
import PipeX.Plugin.Worker.Lifecycle

namespace PipeX

open Transition Outcomes

/-- A property is `none` where it is missing. -/
structure WorkerPoolOptions where
  /-- whether it is a text or a `URL` -/
  filename : Bool
  /-- `some none` is a value that is no text -/
  processName : Option (Option String)
  reverseName : Option (Option String)
  maxThreads : Option JsNumber
  maxQueue : Option JsNumber
  taskTimeoutMs : Option JsNumber
  closeTimeoutMs : Option JsNumber
deriving DecidableEq, Repr

namespace WorkerPoolOptions

/-- `MAX_THREADS`. -/
def maxThreadsBound : Nat := 128

/-- `MAX_QUEUE`. -/
def maxQueueBound : Nat := 100000

/-- `DEFAULT_MAX_QUEUE`. -/
def defaultMaxQueue : Nat := 64

/-- `DEFAULT_MAX_THREADS`. -/
def defaultMaxThreads (availableParallelism : Nat) : Nat := max 1 (min 4 availableParallelism)

/-! ## Checks -/

def validateInteger (value : Option JsNumber) (name : String) (allowZero : Bool) :
    Except JsError Unit :=
  match value with
  | none => .ok ()
  | some value =>
    if value.isLimit = false ∨ value.toNat < (if allowZero then 0 else 1) then
      let kind := if allowZero then "a non-negative" else "a positive"
      .error (plainError s!"[PipeX] Worker pool {name} must be {kind} integer")
    else .ok ()

/-- `if (value !== undefined && value > bound) throw new Error(message);` -/
def checkAtMost (value : Option JsNumber) (bound : Nat) (message : String) : Except JsError Unit :=
  match value with
  | none => .ok ()
  | some value => if value.toNat > bound then .error (plainError message) else .ok ()

/-- The body of the loop over the two names. -/
def checkExportName (name : String) (value : Option (Option String)) : Except JsError Unit :=
  let error := plainError s!"[PipeX] Worker pool {name} must be a non-empty export name"
  match value with
  | none => .ok ()
  | some none => .error error
  | some (some value) =>
    if DataEngine.utf16Length value = 0 ∨ DataEngine.utf16Length value > 128 then .error error
    else .ok ()

section

variable (options : WorkerPoolOptions)

/-- The checks of the constructor. -/
def check : Except JsError Unit := do
  if options.filename = false then
    throw (plainError "[PipeX] Worker pool requires a worker filename")
  validateInteger options.maxThreads "maxThreads" false
  validateInteger options.maxQueue "maxQueue" false
  validateInteger options.taskTimeoutMs "taskTimeoutMs" true
  validateInteger options.closeTimeoutMs "closeTimeoutMs" true
  checkAtMost options.maxThreads maxThreadsBound
    s!"[PipeX] Worker pool maxThreads cannot exceed {maxThreadsBound}"
  checkAtMost options.maxQueue maxQueueBound
    s!"[PipeX] Worker pool maxQueue cannot exceed {maxQueueBound}"
  checkAtMost options.taskTimeoutMs maxTimerMs
    "[PipeX] Worker pool taskTimeoutMs exceeds the supported timer range"
  checkAtMost options.closeTimeoutMs maxTimerMs
    "[PipeX] Worker pool closeTimeoutMs exceeds the supported timer range"
  checkExportName "processName" options.processName
  checkExportName "reverseName" options.reverseName

/-- The fields that the constructor fills. -/
def settings (worker : Option String → Bytes → Except JsError Bytes) (availableParallelism : Nat) :
    WorkerPoolSettings where
  plugin := {
    processName := options.processName.join
    reverseName := options.reverseName.join
    maxQueue := (options.maxQueue.map JsNumber.toNat).getD defaultMaxQueue
    worker }
  maxThreads :=
    (options.maxThreads.map JsNumber.toNat).getD (defaultMaxThreads availableParallelism)
  taskTimeoutMs := options.taskTimeoutMs.map JsNumber.toNat

/-- `new WorkerPoolPlugin(options)`, with the exports of the worker module. -/
def construct (worker : Option String → Bytes → Except JsError Bytes)
    (availableParallelism : Nat) : Except JsError WorkerPoolSettings := do
  options.check
  return options.settings worker availableParallelism

/-! ## Accepted options -/

/-- A number that is given is an integer in a range. -/
def Within (least most : Nat) (value : Option JsNumber) : Prop :=
  ∀ number ∈ value, number.isLimit = true ∧ least ≤ number.toNat ∧ number.toNat ≤ most

/-- A name that is given is a text of at most 128 code units, and not empty. -/
def IsExportName (value : Option (Option String)) : Prop :=
  ∀ name ∈ value, ∃ text, name = some text ∧ 1 ≤ DataEngine.utf16Length text ∧
    DataEngine.utf16Length text ≤ 128

structure Accepted : Prop where
  filename : options.filename = true
  maxThreads : Within 1 maxThreadsBound options.maxThreads
  maxQueue : Within 1 maxQueueBound options.maxQueue
  taskTimeoutMs : Within 0 maxTimerMs options.taskTimeoutMs
  closeTimeoutMs : Within 0 maxTimerMs options.closeTimeoutMs
  processName : IsExportName options.processName
  reverseName : IsExportName options.reverseName

end

theorem validateInteger_ok {value : Option JsNumber} {name : String} {allowZero : Bool} :
    validateInteger value name allowZero = .ok () ↔
      ∀ number ∈ value, number.isLimit = true ∧ (if allowZero then 0 else 1) ≤ number.toNat := by
  cases value with
  | none => exact ⟨fun _ => nofun, fun _ => rfl⟩
  | some number =>
    simp only [Option.mem_some_iff, forall_eq']
    by_cases hbad : number.isLimit = false ∨ number.toNat < (if allowZero then 0 else 1)
    · have hthrows : validateInteger (some number) name allowZero = .error _ := if_pos hbad
      rw [hthrows]
      constructor
      · intro h
        cases h
      · rintro ⟨hlimit, hleast⟩
        rcases hbad with hbad | hbad
        · rw [hlimit] at hbad
          cases hbad
        · exact absurd hleast (Nat.not_le_of_lt hbad)
    · have hpasses : validateInteger (some number) name allowZero = .ok () := if_neg hbad
      rw [not_or] at hbad
      exact ⟨fun _ => ⟨Bool.of_not_eq_false hbad.1, Nat.le_of_not_lt hbad.2⟩, fun _ => hpasses⟩

theorem checkAtMost_ok {value : Option JsNumber} {bound : Nat} {message : String} :
    checkAtMost value bound message = .ok () ↔ ∀ number ∈ value, number.toNat ≤ bound := by
  cases value with
  | none => exact ⟨fun _ => nofun, fun _ => rfl⟩
  | some number =>
    simp only [Option.mem_some_iff, forall_eq']
    by_cases hbad : number.toNat > bound
    · have hthrows : checkAtMost (some number) bound message = .error _ := if_pos hbad
      rw [hthrows]
      constructor
      · intro h
        cases h
      · exact fun h => absurd h (Nat.not_le_of_lt hbad)
    · have hpasses : checkAtMost (some number) bound message = .ok () := if_neg hbad
      exact ⟨fun _ => Nat.le_of_not_lt hbad, fun _ => hpasses⟩

/-- The two checks that are made of a number. -/
theorem within_iff {value : Option JsNumber} (name message : String) (allowZero : Bool)
    {most : Nat} :
    (validateInteger value name allowZero = .ok () ∧ checkAtMost value most message = .ok ()) ↔
      Within (if allowZero then 0 else 1) most value := by
  rw [validateInteger_ok, checkAtMost_ok]
  constructor
  · rintro ⟨hinteger, hmost⟩ number hnumber
    exact ⟨(hinteger number hnumber).1, (hinteger number hnumber).2, hmost number hnumber⟩
  · intro h
    exact ⟨fun number hnumber => ⟨(h number hnumber).1, (h number hnumber).2.1⟩,
      fun number hnumber => (h number hnumber).2.2⟩

theorem checkExportName_ok {name : String} {value : Option (Option String)} :
    checkExportName name value = .ok () ↔ IsExportName value := by
  unfold IsExportName
  match value with
  | none => simp [checkExportName]
  | some none => simp [checkExportName]
  | some (some text) =>
    simp only [checkExportName, Option.mem_some_iff, forall_eq', Option.some.injEq,
      exists_eq_left']
    split
    · rename_i hbad
      constructor
      · intro h
        cases h
      · intro h
        omega
    · rename_i hgood
      constructor
      · intro _
        omega
      · exact fun _ => rfl

/-- The constructor accepts these options and no others. -/
theorem check_ok_iff {options : WorkerPoolOptions} : options.check = .ok () ↔ options.Accepted := by
  constructor
  · intro h
    obtain ⟨hfilename, h⟩ := guard_ok h
    obtain ⟨_, hthreads, h⟩ := bind_ok h
    obtain ⟨_, hqueue, h⟩ := bind_ok h
    obtain ⟨_, htask, h⟩ := bind_ok h
    obtain ⟨_, hclose, h⟩ := bind_ok h
    obtain ⟨_, hthreadsMost, h⟩ := bind_ok h
    obtain ⟨_, hqueueMost, h⟩ := bind_ok h
    obtain ⟨_, htaskMost, h⟩ := bind_ok h
    obtain ⟨_, hcloseMost, h⟩ := bind_ok h
    obtain ⟨_, hprocess, hreverse⟩ := bind_ok h
    exact {
      filename := Bool.of_not_eq_false hfilename
      maxThreads := (within_iff _ _ _).mp ⟨hthreads, hthreadsMost⟩
      maxQueue := (within_iff _ _ _).mp ⟨hqueue, hqueueMost⟩
      taskTimeoutMs := (within_iff _ _ _).mp ⟨htask, htaskMost⟩
      closeTimeoutMs := (within_iff _ _ _).mp ⟨hclose, hcloseMost⟩
      processName := checkExportName_ok.mp hprocess
      reverseName := checkExportName_ok.mp hreverse }
  · intro h
    have hfilename : ¬ options.filename = false := by simp [h.filename]
    obtain ⟨hthreads, hthreadsMost⟩ := (within_iff "maxThreads"
      s!"[PipeX] Worker pool maxThreads cannot exceed {maxThreadsBound}" false).mpr h.maxThreads
    obtain ⟨hqueue, hqueueMost⟩ := (within_iff "maxQueue"
      s!"[PipeX] Worker pool maxQueue cannot exceed {maxQueueBound}" false).mpr h.maxQueue
    obtain ⟨htask, htaskMost⟩ := (within_iff "taskTimeoutMs"
      "[PipeX] Worker pool taskTimeoutMs exceeds the supported timer range" true).mpr
      h.taskTimeoutMs
    obtain ⟨hclose, hcloseMost⟩ := (within_iff "closeTimeoutMs"
      "[PipeX] Worker pool closeTimeoutMs exceeds the supported timer range" true).mpr
      h.closeTimeoutMs
    simp only [check, if_neg hfilename, hthreads, hqueue, htask, hclose, hthreadsMost, hqueueMost,
      htaskMost, hcloseMost, checkExportName_ok.mpr h.processName,
      checkExportName_ok.mpr h.reverseName]
    rfl

/-- The settings of accepted options are in range, whatever the machine is. -/
theorem settings_within {options : WorkerPoolOptions} (h : options.Accepted)
    (worker : Option String → Bytes → Except JsError Bytes) (availableParallelism : Nat) :
    let settings := options.settings worker availableParallelism
    (1 ≤ settings.maxThreads ∧ settings.maxThreads ≤ maxThreadsBound) ∧
      (1 ≤ settings.plugin.maxQueue ∧ settings.plugin.maxQueue ≤ maxQueueBound) ∧
      ∀ timeout ∈ settings.taskTimeoutMs, timeout ≤ maxTimerMs := by
  refine ⟨?_, ?_, ?_⟩
  · show 1 ≤ (options.maxThreads.map JsNumber.toNat).getD (defaultMaxThreads availableParallelism) ∧
      (options.maxThreads.map JsNumber.toNat).getD (defaultMaxThreads availableParallelism) ≤ 128
    cases hthreads : options.maxThreads with
    | none =>
      show 1 ≤ max 1 (min 4 availableParallelism) ∧ max 1 (min 4 availableParallelism) ≤ 128
      omega
    | some number => exact (h.maxThreads number hthreads).2
  · show 1 ≤ (options.maxQueue.map JsNumber.toNat).getD defaultMaxQueue ∧
      (options.maxQueue.map JsNumber.toNat).getD defaultMaxQueue ≤ maxQueueBound
    cases hqueue : options.maxQueue with
    | none => decide
    | some number => exact (h.maxQueue number hqueue).2
  · intro timeout htimeout
    obtain ⟨number, hnumber, rfl⟩ := Option.mem_map.mp htimeout
    exact (h.taskTimeoutMs number hnumber).2.2

theorem construct_ok_iff {options : WorkerPoolOptions}
    {worker : Option String → Bytes → Except JsError Bytes} {availableParallelism : Nat}
    {settings : WorkerPoolSettings} :
    options.construct worker availableParallelism = .ok settings ↔
      options.Accepted ∧ settings = options.settings worker availableParallelism := by
  unfold construct
  rw [bind_ok_iff]
  constructor
  · rintro ⟨_, hcheck, h⟩
    cases h
    exact ⟨check_ok_iff.mp hcheck, rfl⟩
  · rintro ⟨haccepted, rfl⟩
    exact ⟨(), check_ok_iff.mpr haccepted, rfl⟩

/-! ## The pool behind the constructor -/

open WorkerPool

theorem assertAdmissible_ok {settings : WorkerPoolSettings} {pool : WorkerPool} {data : Bytes}
    {ctx : TaskContext} (htimeout : taskTimeout settings ctx ≤ maxTimerMs) :
    assertAdmissible settings pool data ctx = .ok () ↔
      pool.fatalError = none ∧ pool.accepting = true ∧
        data.length ≤ pluginInputLimit ctx.limits ∧ pool.inFlight < settings.maxInFlight := by
  constructor
  · intro h
    cases hfatal : pool.fatalError with
    | some error =>
      simp [assertAdmissible, hfatal, bind, Except.bind, throw, throwThe, MonadExceptOf.throw] at h
    | none =>
      simp only [assertAdmissible, hfatal] at h
      obtain ⟨haccepting, h⟩ := guard_ok h
      obtain ⟨hfits, h⟩ := guard_ok h
      obtain ⟨hroom, -⟩ := guard_ok h
      exact ⟨rfl, Bool.of_not_eq_false haccepting, Nat.le_of_not_lt hfits, Int.lt_of_not_ge hroom⟩
  · rintro ⟨hfatal, haccepting, hfits, hroom⟩
    have hopen : ¬ pool.accepting = false := by simp [haccepting]
    simp only [assertAdmissible, hfatal, if_neg hopen, if_neg (Nat.not_lt_of_le hfits),
      if_neg (Int.not_le_of_gt hroom), if_neg (Nat.not_lt_of_le htimeout)]
    rfl

/-- No timeout that a constructor or an engine has accepted is found invalid. -/
theorem taskTimeout_le {settings : WorkerPoolSettings} {ctx : TaskContext}
    (hsettings : ∀ timeout ∈ settings.taskTimeoutMs, timeout ≤ maxTimerMs)
    (hlimits : ∀ limits ∈ ctx.limits, limits.Valid) : taskTimeout settings ctx ≤ maxTimerMs := by
  unfold taskTimeout
  cases htask : settings.taskTimeoutMs with
  | some timeout => exact hsettings timeout htask
  | none =>
    cases hctx : ctx.limits with
    | none => exact defaultLimits_valid.timer
    | some limits => exact (hlimits limits hctx).timer

theorem admission_fails_iff {settings : WorkerPoolSettings} {pool : WorkerPool} {data : Bytes}
    {ctx : TaskContext} :
    (∃ e, (admission settings data ctx).run pool = .error e pool) ↔
      assertAdmissible settings pool data ctx ≠ .ok () := by
  cases hchecks : assertAdmissible settings pool data ctx with
  | error e =>
    refine ⟨fun _ => nofun, fun _ => ⟨e, ?_⟩⟩
    simp only [admission, EStateM.run_bind, EStateM.run_get, hchecks]
    rfl
  | ok u =>
    refine ⟨?_, fun h => absurd rfl h⟩
    rintro ⟨e, he⟩
    simp only [admission, EStateM.run_bind, EStateM.run_get, hchecks] at he
    cases he

/-- In every run of a pool that the constructor has accepted, no more tasks are under way than
    its bounds add up to, and a task within the limits of an engine is turned away only where
    the pool has stopped, the data are too long or the pool is full. -/
theorem constructed_admits {options : WorkerPoolOptions}
    {worker : Option String → Bytes → Except JsError Bytes} {availableParallelism : Nat}
    {settings : WorkerPoolSettings}
    (h : options.construct worker availableParallelism = .ok settings)
    {actions : List WorkerPool.Action} (hlegal : (machine settings).Legal new actions) :
    let pool := (machine settings).run new actions
    pool.tasks.length ≤ maxThreadsBound + maxQueueBound ∧
    ∀ data ctx, (∀ limits ∈ ctx.limits, limits.Valid) →
      ((∃ e, (admission settings data ctx).run pool = .error e pool) ↔
        pool.accepting = false ∨ pluginInputLimit ctx.limits < data.length ∨
          settings.maxThreads + settings.plugin.maxQueue ≤ pool.tasks.length) := by
  intro pool
  have hcoherent : Coherent settings pool := coherent_run hlegal
  obtain ⟨haccepted, rfl⟩ := construct_ok_iff.mp h
  obtain ⟨⟨-, hthreads⟩, ⟨-, hqueue⟩, htask⟩ :=
    settings_within haccepted worker availableParallelism
  have hcounted := hcoherent.counted
  have hbounded := hcoherent.bounded
  unfold WorkerPoolSettings.maxInFlight at hbounded
  refine ⟨by omega, fun data ctx hlimits => ?_⟩
  rw [admission_fails_iff, Ne, assertAdmissible_ok (taskTimeout_le htask hlimits)]
  unfold WorkerPoolSettings.maxInFlight
  constructor
  · intro hrefused
    by_contra hopen
    simp only [not_or, Bool.not_eq_false, Nat.not_lt, Nat.not_le] at hopen
    obtain ⟨haccepting, hfits, hroom⟩ := hopen
    have hfatal : pool.fatalError = none := by
      by_contra hfatal
      rw [hcoherent.fatal hfatal] at haccepting
      cases haccepting
    exact hrefused ⟨hfatal, haccepting, hfits, by omega⟩
  · rintro hreason ⟨-, haccepting, hfits, hroom⟩
    rcases hreason with hclosed | hlong | hfull
    · rw [hclosed] at haccepting
      cases haccepting
    · omega
    · omega

/-- Options for one thread and one place in the queue. -/
def smallOptions : WorkerPoolOptions :=
  ⟨true, none, none, some (.integer 1), some (.integer 1), none, none⟩

/-- Two tasks, of which one waits in the queue. -/
def fillingRun : List WorkerPool.Action :=
  [.submit [1] ⟨none, none⟩ none, .submit [2] ⟨none, none⟩ none]

/-- The third task is turned away. -/
theorem constructed_admits_full :
    ∃ settings, smallOptions.construct (fun _ data => .ok data) 8 = .ok settings ∧
      ∃ e, (admission settings [3] ⟨none, none⟩).run ((machine settings).run new fillingRun) =
        .error e ((machine settings).run new fillingRun) := by
  have hconstruct : smallOptions.construct (fun _ data => .ok data) 8 =
      .ok (smallOptions.settings (fun _ data => .ok data) 8) := by rfl
  have hlegal : (machine (smallOptions.settings (fun _ data => .ok data) 8)).Legal new fillingRun :=
    ⟨trivial, trivial, trivial⟩
  obtain ⟨-, hadmits⟩ := constructed_admits hconstruct hlegal
  exact ⟨_, hconstruct, (hadmits [3] ⟨none, none⟩ nofun).mpr (.inr (.inr (by decide)))⟩

end WorkerPoolOptions
end PipeX
