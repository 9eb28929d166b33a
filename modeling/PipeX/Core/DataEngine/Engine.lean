/-
  PipeX.Core.DataEngine.Engine

  The state of `DataEngine` (`src/core/dataEngine.ts`) that the request lifecycle
  rests on, and the methods that change it.

  A method that throws is an `EStateM` action: what it changed before it threw
  stays changed.  Log lines and events are left out; every method writes them
  behind its last change of the state.
-/
import PipeX.Core.DataEngine.Limits
import PipeX.Core.Operations
import PipeX.Core.Plugin
import Mathlib.Algebra.GroupWithZero.Nat
import Mathlib.Data.Finset.Card
import Mathlib.Logic.Function.Basic

namespace PipeX

/-- What `randomUUID()` returns; only whether two of them are equal is looked at. -/
abbrev RequestId : Type := Nat

/-- The identity of a promise. -/
abbrev PromiseId : Type := Nat

/-- A closure `settled` of `trackWork` that has not run yet.  It keeps the set it
    was made with, whatever `#pendingWork` holds by then. -/
structure SettledCallback where
  requestId : RequestId
  work : Nat
  pending : PromiseId
deriving DecidableEq, Repr

/-- The sets that `trackWork` makes are objects: those of one request are numbered,
    and `workSets` has their elements. -/
structure DataEngine where
  plugins : List ProcessorPlugin
  limits : EngineLimits
  activeRequests : Finset RequestId
  pendingWork : RequestId → Option Nat
  finishedRequests : Finset RequestId
  requestPipelines : RequestId → Option (List String)
  workSets : RequestId → Nat → Finset PromiseId
  createdSets : Nat
  settledCallbacks : List SettledCallback

/-- A method of `DataEngine`. -/
abbrev Method : Type → Type := EStateM JsError DataEngine

namespace DataEngine

/-- A check that does not look at the engine. -/
def check {α : Type} : Except JsError α → Method α
  | .ok a => pure a
  | .error e => throw e

/-- `pipeline`. -/
def pipeline (engine : DataEngine) : List String := engine.plugins.map ProcessorPlugin.id

/-! ## Construction, limits and plugins -/

/-- `new DataEngine(limits)`. -/
def new (limits : PartialLimits) : Except JsError DataEngine := do
  let next := defaultLimits.override limits
  validateLimits next
  return {
    plugins := []
    limits := .ofValues fun name => (next name).toNat
    activeRequests := ∅
    pendingWork := fun _ => none
    finishedRequests := ∅
    requestPipelines := fun _ => none
    workSets := fun _ _ => ∅
    createdSets := 0
    settledCallbacks := [] }

def setLimits (limits : PartialLimits) : Method Unit := do
  let engine ← get
  if engine.activeRequests.card > 0 then
    throw (plainError "[PipeX] Cannot modify engine limits while operations are active")
  let next := engine.limits.override limits
  check (validateLimits next)
  modify fun engine => { engine with limits := .ofValues fun name => (next name).toNat }

/-- The argument of `use`: a property is `none` where it is not of its type. -/
structure PluginValue where
  name : Option String
  version : Option String
  /-- `typeof plugin.process === 'function'` -/
  process : Bool
  reversible : Declared
  streaming : Declared
  reverse : ReverseImplementation
  createStream : Bool
deriving DecidableEq, Repr

/-- `length` of a string, in UTF-16 code units. -/
def utf16Length (s : String) : Nat :=
  (s.toList.map fun c => if c.toNat < 0x10000 then 1 else 2).sum

/-- The first check of `use`. -/
def checkPlugin (plugin : PluginValue) : Except JsError ProcessorPlugin :=
  match plugin.name, plugin.version with
  | some name, some version =>
    if utf16Length name = 0 ∨ utf16Length name > 128 ∨ utf16Length version = 0 ∨
        plugin.process = false then
      .error (plainError "[PipeX] Invalid processor plugin")
    else
      .ok ⟨name, version, plugin.reversible, plugin.streaming, plugin.reverse, plugin.createStream⟩
  | _, _ => .error (plainError "[PipeX] Invalid processor plugin")

def use (plugin : PluginValue) : Method Unit := do
  let plugin ← check (checkPlugin plugin)
  let _ ← check (getPluginCapabilities plugin)
  let engine ← get
  if engine.activeRequests.card > 0 then
    throw (plainError "[PipeX] Cannot modify the plugin pipeline while operations are active")
  if engine.plugins.length ≥ 256 then
    throw (plainError "[PipeX] Maximum plugin count exceeded")
  modify fun engine => { engine with plugins := engine.plugins ++ [plugin] }

/-! ## Requests -/

/-- `startRequest`, with the id that `randomUUID` returns. -/
def startRequest (requestId : RequestId) : Method RequestId := do
  let engine ← get
  if engine.activeRequests.card ≥ engine.limits.maxConcurrentOperations then
    throw (plainError "[PipeX] Maximum concurrent operations exceeded")
  modify fun engine => { engine with activeRequests := insert requestId engine.activeRequests }
  modify fun engine => { engine with
    requestPipelines := Function.update engine.requestPipelines requestId (some engine.pipeline) }
  return requestId

/-- `this.#pendingWork.get(requestId)?.size` as a condition. -/
def hasPendingWork (engine : DataEngine) (requestId : RequestId) : Bool :=
  (engine.pendingWork requestId).any fun work => decide (0 < (engine.workSets requestId work).card)

def releaseRequest (engine : DataEngine) (requestId : RequestId) : DataEngine :=
  if engine.hasPendingWork requestId then
    { engine with finishedRequests := insert requestId engine.finishedRequests }
  else
    { engine with
      activeRequests := engine.activeRequests.erase requestId
      finishedRequests := engine.finishedRequests.erase requestId
      requestPipelines := Function.update engine.requestPipelines requestId none }

/-- `endRequest`: it releases the request, and then logs and emits. -/
def endRequest (engine : DataEngine) (requestId : RequestId) : DataEngine :=
  engine.releaseRequest requestId

/-- `emitError`: it makes an `Error` of what was thrown, releases the request, and
    then logs and emits.  A value that `String` cannot convert throws in front of the
    release. -/
def emitError (engine : DataEngine) (err : Thrown) (requestId : RequestId) :
    Except Thrown DataEngine := do
  let _ ← err.toError
  return engine.releaseRequest requestId

/-- `if (!work) this.#pendingWork.set(requestId, work = new Set())`. -/
def workOf (engine : DataEngine) (requestId : RequestId) : DataEngine × Nat :=
  match engine.pendingWork requestId with
  | some work => (engine, work)
  | none =>
    let work := engine.createdSets
    ({ engine with
      pendingWork := Function.update engine.pendingWork requestId (some work)
      workSets := Function.update engine.workSets requestId
        (Function.update (engine.workSets requestId) work ∅)
      createdSets := work + 1 }, work)

def trackWork (engine : DataEngine) (requestId : RequestId) (pending : PromiseId) : DataEngine :=
  let (engine, work) := engine.workOf requestId
  { engine with
    workSets := Function.update engine.workSets requestId
      (Function.update (engine.workSets requestId) work
        (insert pending (engine.workSets requestId work)))
    settledCallbacks := engine.settledCallbacks ++ [⟨requestId, work, pending⟩] }

/-- The closure `settled` runs. -/
def settled (engine : DataEngine) (callback : SettledCallback) : DataEngine :=
  let requestId := callback.requestId
  let work := (engine.workSets requestId callback.work).erase callback.pending
  let engine := { engine with
    workSets := Function.update engine.workSets requestId
      (Function.update (engine.workSets requestId) callback.work work)
    settledCallbacks := engine.settledCallbacks.erase callback }
  if work.card = 0 then
    let engine := { engine with pendingWork := Function.update engine.pendingWork requestId none }
    if requestId ∈ engine.finishedRequests then engine.releaseRequest requestId else engine
  else engine

/-! ## What a call can do -/

/-- `setLimits` replaces the limits of an idle engine by valid ones, or changes
    nothing. -/
theorem setLimits_cases (limits : PartialLimits) (engine : DataEngine) :
    (∃ e, (setLimits limits).run engine = .error e engine) ∨
      ∃ next : EngineLimits, next.Valid ∧ engine.activeRequests = ∅ ∧
        (setLimits limits).run engine = .ok () { engine with limits := next } := by
  by_cases hactive : engine.activeRequests.card > 0
  · refine .inl ⟨plainError "[PipeX] Cannot modify engine limits while operations are active", ?_⟩
    simp only [setLimits, EStateM.run_bind, EStateM.run_get, hactive]
    rfl
  · have hidle : engine.activeRequests = ∅ := by
      rw [← Finset.card_eq_zero]
      omega
    cases hvalid : validateLimits (engine.limits.override limits) with
    | error e =>
      refine .inl ⟨e, ?_⟩
      simp only [setLimits, EStateM.run_bind, EStateM.run_get, hactive, hvalid, if_false]
      rfl
    | ok u =>
      refine .inr ⟨_, (validateLimits_ok hvalid).2, hidle, ?_⟩
      simp only [setLimits, EStateM.run_bind, EStateM.run_get, hactive, hvalid, if_false]
      rfl

/-- `use` adds a plugin that passes the checks to an idle engine, or changes
    nothing. -/
theorem use_cases (plugin : PluginValue) (engine : DataEngine) :
    (∃ e, (use plugin).run engine = .error e engine) ∨
      ∃ added : ProcessorPlugin, checkPlugin plugin = .ok added ∧ engine.activeRequests = ∅ ∧
        engine.plugins.length < 256 ∧
        (use plugin).run engine = .ok () { engine with plugins := engine.plugins ++ [added] } := by
  cases hcheck : checkPlugin plugin with
  | error e =>
    refine .inl ⟨e, ?_⟩
    simp only [use, EStateM.run_bind, hcheck]
    rfl
  | ok added =>
    cases hcapabilities : getPluginCapabilities added with
    | error e =>
      refine .inl ⟨e, ?_⟩
      simp only [use, EStateM.run_bind, hcheck, check, EStateM.run_pure, hcapabilities]
      rfl
    | ok capabilities =>
      have hrun : (use plugin).run engine =
          if engine.activeRequests.card > 0 then
            .error (plainError
              "[PipeX] Cannot modify the plugin pipeline while operations are active") engine
          else if engine.plugins.length ≥ 256 then
            .error (plainError "[PipeX] Maximum plugin count exceeded") engine
          else .ok () { engine with plugins := engine.plugins ++ [added] } := by
        simp only [use, EStateM.run_bind, hcheck, check, EStateM.run_pure, hcapabilities,
          EStateM.run_get]
        split
        · rfl
        · split <;> rfl
      by_cases hactive : engine.activeRequests.card > 0
      · rw [hrun, if_pos hactive]
        exact .inl ⟨_, rfl⟩
      · have hidle : engine.activeRequests = ∅ := by
          rw [← Finset.card_eq_zero]
          omega
        rw [hrun, if_neg hactive]
        by_cases hcount : engine.plugins.length ≥ 256
        · rw [if_pos hcount]
          exact .inl ⟨_, rfl⟩
        · rw [if_neg hcount]
          exact .inr ⟨added, rfl, hidle, Nat.lt_of_not_ge hcount, rfl⟩

/-- `startRequest` takes a free slot, or changes nothing. -/
theorem startRequest_cases (requestId : RequestId) (engine : DataEngine) :
    (∃ e, (startRequest requestId).run engine = .error e engine ∧
      engine.limits.maxConcurrentOperations ≤ engine.activeRequests.card) ∨
      (engine.activeRequests.card < engine.limits.maxConcurrentOperations ∧
        (startRequest requestId).run engine = .ok requestId
          { engine with
            activeRequests := insert requestId engine.activeRequests
            requestPipelines :=
              Function.update engine.requestPipelines requestId (some engine.pipeline) }) := by
  by_cases hfull : engine.activeRequests.card ≥ engine.limits.maxConcurrentOperations
  · refine .inl ⟨plainError "[PipeX] Maximum concurrent operations exceeded", ?_, hfull⟩
    simp only [startRequest, EStateM.run_bind, EStateM.run_get, hfull]
    rfl
  · refine .inr ⟨Nat.lt_of_not_ge hfull, ?_⟩
    simp only [startRequest, EStateM.run_bind, EStateM.run_get, hfull, if_false]
    rfl

/-- `emitError` releases the request, or throws what the conversion throws. -/
theorem emitError_cases (engine : DataEngine) (err : Thrown) (requestId : RequestId) :
    (∃ error, err.toError = .ok error ∧
      engine.emitError err requestId = .ok (engine.releaseRequest requestId)) ∨
      ∃ thrown, err.toError = .error thrown ∧ engine.emitError err requestId = .error thrown := by
  rw [emitError]
  cases err.toError with
  | ok error => exact .inl ⟨error, rfl, rfl⟩
  | error thrown => exact .inr ⟨thrown, rfl, rfl⟩

/-- A request with pending work waits for it, -/
theorem releaseRequest_pending {engine : DataEngine} {requestId : RequestId}
    (h : engine.hasPendingWork requestId = true) :
    engine.releaseRequest requestId =
      { engine with finishedRequests := insert requestId engine.finishedRequests } :=
  if_pos h

/-- and any other is gone. -/
theorem releaseRequest_free {engine : DataEngine} {requestId : RequestId}
    (h : engine.hasPendingWork requestId = false) :
    engine.releaseRequest requestId =
      { engine with
        activeRequests := engine.activeRequests.erase requestId
        finishedRequests := engine.finishedRequests.erase requestId
        requestPipelines := Function.update engine.requestPipelines requestId none } :=
  if_neg (by simp [h])

end DataEngine
end PipeX
