/-
  PipeX.Core.Controllers.Operation

  What the controllers of `src/core/controllers` share: the code an engine was
  given, the call of a plugin, the audit record, and the frame of an operation
  (`startRequest` in front, `endRequest` or `emitError` and `releaseRequest`
  behind).

  Nothing aborts an operation here and no deadline passes.  Every promise that an
  operation tracks is settled before the operation goes on, so none is pending
  when the request is released.
-/
import PipeX.Core.DataEngine.Engine
import PipeX.Core.Retry
import PipeX.Core.Value
import PipeX.Lib.Pipeline

namespace PipeX

open DataEngine Chunked

/-! ## The code of an engine -/

/-- `ProcessorContext`; the `metadata` of a call is `{ originalType }` or empty. -/
structure ProcessorContext where
  requestId : RequestId
  originalType : Option TypeName
  limits : EngineLimits
deriving DecidableEq, Repr

/-- What a call of a plugin comes to, by the number of the attempt; a value that is
    no `Buffer` is `none`. -/
abbrev PluginFunction : Type := ProcessorContext → Nat → Bytes → Except JsError (Option Bytes)

/-- `StreamPluginContext`. -/
structure StreamPluginContext where
  requestId : RequestId
  limits : EngineLimits
deriving DecidableEq, Repr

structure Plugin where
  declaration : ProcessorPlugin
  retryOptions : Option DeclaredRetryOptions
  process : PluginFunction
  reverse : PluginFunction
  /-- `createStream(mode, context)`, handed its chunks and ended; the construction
      fails before anything is written -/
  createStream : StreamMode → StreamPluginContext → Stage UInt8 JsError

inductive AuditOperation where
  | process
  | reverse
  | pack
  | unpack
deriving DecidableEq, Repr

inductive AuditMetadata where
  /-- `{ inputType, durationMs }` -/
  | input (inputType : TypeName) (durationMs : JsDouble)
  /-- `{ originalType }` -/
  | original (originalType : TypeName)
  /-- `{ controller: 'stream' }` -/
  | stream
deriving DecidableEq, Repr

structure AuditRecord where
  requestId : RequestId
  operation : AuditOperation
  metadata : AuditMetadata
  pluginChain : List String
deriving DecidableEq, Repr

/-- What an engine was given by its owner, besides its limits. -/
structure EngineCode (Obj : Type) where
  host : Host Obj
  plugins : List Plugin
  /-- `schema.safeParse(value).success` -/
  schema : Option (Value Obj → Bool)
  auditLogger : Option (AuditRecord → Except JsError Unit)

namespace EngineCode

variable {Obj : Type} (code : EngineCode Obj)

/-- The engine has these plugins, and `use` has accepted each of them. -/
structure RunsOn (engine : DataEngine) : Prop where
  plugins : engine.plugins = code.plugins.map Plugin.declaration
  count : engine.plugins.length ≤ 256
  accepted : ∀ plugin ∈ engine.plugins, ∃ c, getPluginCapabilities plugin = .ok c

def validate (data : Value Obj) : Except JsError Unit :=
  match code.schema with
  | some safeParse =>
    if safeParse data then .ok () else .error (plainError "[PipeX] Core Validation failed")
  | none => .ok ()

theorem validate_none (hschema : code.schema = none) (data : Value Obj) :
    code.validate data = .ok () := by
  simp only [validate, hschema]

def emitAudit (engine : DataEngine) (requestId : RequestId) (operation : AuditOperation)
    (metadata : AuditMetadata) : Except JsError Unit :=
  match code.auditLogger with
  | some log =>
    log ⟨requestId, operation, metadata,
      if operation = .pack ∨ operation = .unpack then []
      else (engine.requestPipelines requestId).getD engine.pipeline⟩
  | none => .ok ()

end EngineCode

theorem assertPipeline_declarations {supports : ProcessorPlugin → Except JsError Bool}
    {unsupported : String → JsError} {plugins : List Plugin}
    (h : ∀ plugin ∈ plugins, supports plugin.declaration = .ok true) :
    assertPipeline supports unsupported (plugins.map Plugin.declaration) = .ok () := by
  apply assertPipeline_ok_iff.mpr
  intro declaration hdeclaration
  obtain ⟨plugin, hplugin, rfl⟩ := List.mem_map.mp hdeclaration
  exact h plugin hplugin

/-- `await withRetry(() => fn(data, ctx), ..)` and the check of what comes back. -/
def callPlugin (ctx : ProcessorContext) (plugin : Plugin) (fn : PluginFunction) (data : Bytes) :
    Except JsError Bytes := do
  let returned ← withRetry (fun attempt => fn ctx attempt data) plugin.retryOptions ctx.limits
  match returned with
  | none => throw (plainError "[PipeX] Plugin output exceeds configured limit")
  | some output =>
    if output.length > ctx.limits.maxOutputBytes then
      throw (plainError "[PipeX] Plugin output exceeds configured limit")
    return output

theorem callPlugin_ok {ctx : ProcessorContext} {plugin : Plugin} {fn : PluginFunction}
    {data output : Bytes} (h : callPlugin ctx plugin fn data = .ok output) :
    checkRetryOptions plugin.retryOptions ctx.limits = .ok () ∧
      output.length ≤ ctx.limits.maxOutputBytes ∧
      ∃ attempt, fn ctx attempt data = .ok (some output) := by
  simp only [callPlugin, bind, Except.bind, pure, Except.pure, throw, throwThe,
    MonadExceptOf.throw] at h
  split at h
  · cases h
  rename_i returned hretry
  obtain ⟨hcheck, attempt, hattempt⟩ := withRetry_ok hretry
  cases returned with
  | none => cases h
  | some bytes =>
    simp only at h
    split at h
    · cases h
    rename_i hlen
    cases h
    exact ⟨hcheck, Nat.le_of_not_lt hlen, attempt, hattempt⟩

/-- A plugin whose first attempt returns a buffer. -/
theorem callPlugin_first {ctx : ProcessorContext} {plugin : Plugin} {fn : PluginFunction}
    {data output : Bytes} (hcheck : checkRetryOptions plugin.retryOptions ctx.limits = .ok ())
    (hfirst : fn ctx 0 data = .ok (some output)) :
    callPlugin ctx plugin fn data =
      if output.length > ctx.limits.maxOutputBytes then
        .error (plainError "[PipeX] Plugin output exceeds configured limit")
      else
        .ok output := by
  have hretry : withRetry (fun attempt => fn ctx attempt data) plugin.retryOptions ctx.limits =
      .ok (some output) := withRetry_first hcheck hfirst
  simp only [callPlugin, hretry, bind, Except.bind]
  split <;> rfl

/-! ## The frame of an operation -/

section Request

variable {α : Type}

/-- `endRequest` behind a result, `emitError` behind an error, and what stands in
    `finally`. -/
def conclude (requestId : RequestId) (cleanup : DataEngine → DataEngine) :
    Except JsError α → Method α
  | .ok a => do
    -- the last statement of the `try` block
    modify fun engine => engine.endRequest requestId
    modify cleanup
    return a
  | .error error => do
    let engine ← get
    match engine.emitError (.error .error error) requestId with
    | .ok engine => set engine
    | .error _ => pure ()
    modify cleanup
    throw error

/-- An operation whose `try` block is `body`. -/
def request (requestId : RequestId) (cleanup : DataEngine → DataEngine)
    (body : DataEngine → Except JsError α) : Method α := do
  let requestId ← startRequest requestId
  let engine ← get
  conclude requestId cleanup (body engine)

/-- An id the engine has not seen. -/
structure DataEngine.Fresh (engine : DataEngine) (requestId : RequestId) : Prop where
  active : requestId ∉ engine.activeRequests
  finished : requestId ∉ engine.finishedRequests
  pending : engine.pendingWork requestId = none
  pipeline : engine.requestPipelines requestId = none

/-- The engine while the request runs. -/
def DataEngine.started (engine : DataEngine) (requestId : RequestId) : DataEngine :=
  { engine with
    activeRequests := insert requestId engine.activeRequests
    requestPipelines :=
      Function.update engine.requestPipelines requestId (some engine.pipeline) }

@[simp] theorem started_limits (engine : DataEngine) (requestId : RequestId) :
    (engine.started requestId).limits = engine.limits := rfl

theorem hasPendingWork_of_none {engine : DataEngine} {requestId : RequestId}
    (h : engine.pendingWork requestId = none) : engine.hasPendingWork requestId = false := by
  simp [hasPendingWork, h]

/-- Releasing the request takes back all that starting it has done, -/
theorem DataEngine.Fresh.release_started {engine : DataEngine} {requestId : RequestId}
    (h : engine.Fresh requestId) : (engine.started requestId).releaseRequest requestId = engine := by
  have hpending : (engine.started requestId).hasPendingWork requestId = false :=
    hasPendingWork_of_none h.pending
  rw [releaseRequest_free hpending]
  obtain ⟨plugins, limits, active, pending, finished, pipelines, sets, created, callbacks⟩ := engine
  have hactive : (insert requestId active).erase requestId = active :=
    Finset.erase_insert h.active
  have hfinished : finished.erase requestId = finished := Finset.erase_eq_of_notMem h.finished
  -- the entry that is taken out is the one that was put in
  have hpipelines : Function.update pipelines requestId none = pipelines := by
    rw [← h.pipeline]
    exact Function.update_eq_self requestId pipelines
  simp only [started, Function.update_idem, hactive, hfinished, hpipelines]

/-- and a second release changes nothing. -/
theorem DataEngine.Fresh.release {engine : DataEngine} {requestId : RequestId}
    (h : engine.Fresh requestId) : engine.releaseRequest requestId = engine := by
  rw [releaseRequest_free (hasPendingWork_of_none h.pending)]
  obtain ⟨plugins, limits, active, pending, finished, pipelines, sets, created, callbacks⟩ := engine
  have hactive : active.erase requestId = active := Finset.erase_eq_of_notMem h.active
  have hfinished : finished.erase requestId = finished := Finset.erase_eq_of_notMem h.finished
  have hpipelines : Function.update pipelines requestId none = pipelines := by
    rw [← h.pipeline]
    exact Function.update_eq_self requestId pipelines
  simp only [hactive, hfinished, hpipelines]

/-- An operation comes to what its body comes to, if a slot is free, and leaves the
    engine as it was. -/
theorem request_run {engine : DataEngine} {requestId : RequestId} (h : engine.Fresh requestId)
    {cleanup : DataEngine → DataEngine} (hfinally : cleanup engine = engine)
    (body : DataEngine → Except JsError α) :
    (request requestId cleanup body).run engine =
      if engine.activeRequests.card ≥ engine.limits.maxConcurrentOperations then
        .error (plainError "[PipeX] Maximum concurrent operations exceeded") engine
      else
        match body (engine.started requestId) with
        | .ok a => .ok a engine
        | .error error => .error error engine := by
  by_cases hfull : engine.activeRequests.card ≥ engine.limits.maxConcurrentOperations
  -- `startRequest` throws in front of the `try` block
  · rw [if_pos hfull]
    simp only [request, startRequest, EStateM.run_bind, EStateM.run_get, hfull]
    rfl
  · rw [if_neg hfull]
    have hstart : (startRequest requestId).run engine =
        .ok requestId (engine.started requestId) := by
      simp only [startRequest, EStateM.run_bind, EStateM.run_get, hfull, if_false]
      rfl
    simp only [request, EStateM.run_bind, hstart, EStateM.run_get]
    -- either way the request is released, and `finally` finds nothing left to do
    cases hbody : body (engine.started requestId) with
    | ok a =>
      simp only [conclude, EStateM.run_bind, EStateM.run_modify, EStateM.run_pure, endRequest,
        h.release_started, hfinally]
    | error error =>
      -- an error is not converted, so that the release is reached
      have hemit : (engine.started requestId).emitError (.error .error error) requestId =
          .ok engine := congrArg Except.ok h.release_started
      simp only [conclude, EStateM.run_bind, EStateM.run_get, hemit, EStateM.run_set,
        EStateM.run_modify, hfinally]
      rfl

theorem request_ok {engine engine' : DataEngine} {requestId : RequestId} {a : α}
    (hfresh : engine.Fresh requestId) {cleanup : DataEngine → DataEngine}
    (hfinally : cleanup engine = engine) {body : DataEngine → Except JsError α}
    (h : (request requestId cleanup body).run engine = .ok a engine') :
    engine' = engine ∧ engine.activeRequests.card < engine.limits.maxConcurrentOperations ∧
      body (engine.started requestId) = .ok a := by
  rw [request_run hfresh hfinally] at h
  split at h
  · cases h
  rename_i hfree
  split at h
  · rename_i hbody
    cases h
    exact ⟨rfl, Nat.lt_of_not_ge hfree, hbody⟩
  · cases h

end Request

namespace EngineCode

variable {α : Type}

/-- What a call of a method comes to, without the engine. -/
def outcome : EStateM.Result JsError DataEngine α → Except JsError α
  | .ok a _ => .ok a
  | .error e _ => .error e

/-- What an operation comes to whose slot may be taken. -/
def slotted (engine : DataEngine) (body : Except JsError α) : Except JsError α :=
  if engine.activeRequests.card ≥ engine.limits.maxConcurrentOperations then
    .error (plainError "[PipeX] Maximum concurrent operations exceeded")
  else
    body

theorem slotted_free {engine : DataEngine}
    (h : engine.activeRequests.card < engine.limits.maxConcurrentOperations)
    (body : Except JsError α) : slotted engine body = body :=
  if_neg (Nat.not_le_of_lt h)

theorem slotted_error (engine : DataEngine) (e : JsError) :
    ∃ e', slotted engine (.error e : Except JsError α) = .error e' := by
  simp only [slotted]
  split
  · exact ⟨_, rfl⟩
  · exact ⟨e, rfl⟩

theorem request_outcome {engine : DataEngine} {requestId : RequestId}
    (hfresh : engine.Fresh requestId) {cleanup : DataEngine → DataEngine}
    (hfinally : cleanup engine = engine) (body : DataEngine → Except JsError α) :
    outcome ((request requestId cleanup body).run engine) =
      slotted engine (body (engine.started requestId)) := by
  rw [request_run hfresh hfinally, slotted]
  split
  · rfl
  · cases hbody : body (engine.started requestId) with
    | ok a => rfl
    | error e => rfl

end EngineCode
end PipeX
