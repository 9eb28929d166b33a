/-
  PipeX.Core.Controllers.BinaryController

  `run`, `undo` and `unpackWithManifest` of
  `src/core/controllers/BinaryController.ts`.
-/
import PipeX.Core.Controllers.Operation

namespace PipeX

open DataEngine FrameLimits

/-! ## Results -/

/-- `Number.isFinite`. -/
def JsDouble.isFinite : JsDouble → Bool
  | .integer _ => true
  | .other bits => decide (bits &&& 0x7ff0000000000000 ≠ 0x7ff0000000000000)

/-- `value < 0`, of a value that is finite. -/
def JsDouble.isNegative : JsDouble → Bool
  | .integer n => decide (n < 0)
  | .other bits => decide (negativeZero < bits)

/-- A property is assigned, over an earlier one of its name. -/
def assign (steps : List (String × JsDouble)) (name : String) (value : JsDouble) :
    List (String × JsDouble) :=
  steps.filter (fun step => step.1 ≠ name) ++ [(name, value)]

structure EngineResult where
  data : Bytes
  originalType : TypeName
  pipeline : List String
  /-- `metrics.durationMs` -/
  durationMs : JsDouble
  /-- `metrics.steps` -/
  steps : List (String × JsDouble)
deriving DecidableEq, Repr

/-- A result with the entry that `run` makes for its `data` in `#trustedTypes`. -/
structure LocalResult where
  result : EngineResult
  trustedType : TypeName
deriving DecidableEq, Repr

/-- A duration that is finite and not negative. -/
def isDuration (value : JsDouble) : Bool := value.isFinite && !value.isNegative

/-- The first check of `undo` on a result. -/
def assertEngineResult (result : EngineResult) : Except JsError Unit :=
  if result.pipeline.length ≤ 256 ∧ (∀ id ∈ result.pipeline, utf16Length id ≤ 512) ∧
      isDuration result.durationMs ∧ ∀ step ∈ result.steps, isDuration step.2 then
    .ok ()
  else
    .error (plainError "[PipeX] Invalid EngineResult")

namespace EngineCode

variable {Obj : Type} (code : EngineCode Obj)

/-! ## Packages -/

def unpackWithManifest (limits : EngineLimits) (input : Bytes) :
    Except JsError (PipeXManifest × Value Obj) := do
  if input.length > limits.maxInputBytes then
    throw (plainError "[PipeX] Serialized input exceeds configured limit")
  let _ ← assertMessagePackFrameLimits input limits.maxFrameBytes 2
  let (frames, wentThrough) := code.host.unpackMultiple input
  -- the callback throws at the third value
  if frames.length > 2 then
    throw (plainError "[PipeX] Frame count exceeds configured limit")
  if wentThrough = false then
    throw (plainError "[PipeX] binary.unpackWithManifest: invalid MessagePack input")
  match frames with
  | first :: second :: _ =>
    match manifestOf code.host first with
    | some manifest => return (manifest, second)
    | none =>
      throw (plainError "[PipeX] binary.unpackWithManifest: first frame is not a PipeXManifest")
  | _ =>
    throw (plainError "[PipeX] binary.unpackWithManifest: buffer contains fewer than 2 frames")

/-! ## run -/

/-- The loop over the plugins; `clock k` is the k-th reading of `Date.now()` that a
    duration is computed from. -/
def processPlugins (ctx : ProcessorContext) (clock : Nat → Int) :
    (reading : Nat) → List Plugin → Bytes → List (String × JsDouble) →
      Except JsError (Bytes × List (String × JsDouble))
  | _, [], data, steps => .ok (data, steps)
  | reading, plugin :: plugins, data, steps => do
    let output ← callPlugin ctx plugin plugin.process data
    let durationMs := clock (reading + 1) - clock reading
    processPlugins ctx clock (reading + 2) plugins output
      (assign steps plugin.declaration.name (.integer durationMs))

/-- The `try` block of `run`. -/
def runBody (requestId : RequestId) (clock : Nat → Int) (originalType : TypeName)
    (input : Value Obj) (engine : DataEngine) : Except JsError LocalResult := do
  let limits := engine.limits
  code.validate input
  assertKnownValueByteLimit code.host input limits.maxInputBytes "Input"
  let data ← toBuffer code.host input
  if data.length > limits.maxInputBytes then
    throw (plainError "[PipeX] Input exceeds configured limit")
  -- only these two are encoded as MessagePack
  if originalType = .object ∨ originalType = .array then
    let _ ← assertMessagePackFrameLimits data limits.maxFrameBytes 1
  let ctx : ProcessorContext := ⟨requestId, some originalType, limits⟩
  let (data, steps) ← processPlugins ctx clock 1 code.plugins data []
  if data.length > limits.maxOutputBytes then
    throw (plainError "[PipeX] Output exceeds configured limit")
  let durationMs := .integer (clock (2 * code.plugins.length + 1) - clock 0)
  code.emitAudit engine requestId .process (.input originalType durationMs)
  return ⟨⟨data, originalType, engine.pipeline, durationMs, steps⟩, originalType⟩

def run (requestId : RequestId) (clock : Nat → Int) (input : Value Obj) : Method LocalResult := do
  let originalType := detectType input
  check (assertOriginalType originalType)
  request requestId (·.releaseRequest requestId)
    (code.runBody requestId clock originalType input)

/-! ## undo -/

/-- The loop over the plugins, last first. -/
def reversePlugins (ctx : ProcessorContext) (plugins : List Plugin) (data : Bytes) :
    Except JsError Bytes :=
  plugins.reverse.foldlM (fun data plugin => callPlugin ctx plugin plugin.reverse data) data

/-- What a plugin-less engine takes raw input for: the value in a package, or the
    input itself. -/
def unwrapPackage (limits : EngineLimits) (origType : TypeName) (data : Bytes) :
    Except JsError Bytes :=
  match code.unpackWithManifest limits data with
  -- the `catch` block: the input is no package
  | .error _ => .ok data
  | .ok (manifest, inner) =>
    if manifest.plugins.length ≠ 0 then
      .error (plainError "[PipeX] Manifest plugin chain does not match the configured engine")
    else if detectType inner ≠ origType then
      .error (plainError "[PipeX] Manifest data does not match the expected type")
    else
      toBuffer code.host inner

/-- The `try` block of `undo`. -/
def undoBody (requestId : RequestId) (raw : Bool) (origType : TypeName) (data : Bytes)
    (engine : DataEngine) : Except JsError (Value Obj) := do
  let limits := engine.limits
  -- what `pack` has made goes through without a plugin
  let data ←
    if raw ∧ code.plugins.length = 0 ∧ data.length > 0 then
      code.unwrapPackage limits origType data
    else
      pure data
  let data ← reversePlugins ⟨requestId, some origType, limits⟩ code.plugins data
  if data.length > limits.maxOutputBytes then
    throw (plainError "[PipeX] Output exceeds configured limit")
  let restored ← fromBuffer code.host data origType limits.maxFrameBytes
  code.validate restored
  code.emitAudit engine requestId .reverse (.original origType)
  return restored

/-- `undo` behind the checks of its arguments. -/
def undoRequest (requestId : RequestId) (raw : Bool) (origType : TypeName) (data : Bytes) :
    Method (Value Obj) := do
  let engine ← get
  check (assertReversiblePipeline engine.plugins)
  if data.length > engine.limits.maxInputBytes then
    throw (plainError "[PipeX] Undo input exceeds configured limit")
  request requestId (·.releaseRequest requestId) (code.undoBody requestId raw origType data)

/-- `undo(input, forceType)`. -/
def undoRaw (requestId : RequestId) (input : Bytes) (forceType : TypeName) :
    Method (Value Obj) := do
  check (assertOriginalType forceType)
  code.undoRequest requestId true forceType input

/-- The type a result is decoded as; `trusted` is what `#trustedTypes` holds for its
    `data`. -/
def resolveTrustedType (result : EngineResult) (expectedType trusted : Option TypeName) :
    Except JsError TypeName := do
  assertEngineResult result
  assertOriginalType result.originalType
  match expectedType <|> trusted with
  -- a result that has been transported is no key of `#trustedTypes`
  | none => throw (plainError "[PipeX] Transported EngineResult requires a trusted expectedType")
  | some trustedType =>
    assertOriginalType trustedType
    if trustedType ≠ result.originalType then
      throw (plainError "[PipeX] Result type does not match the expected type")
    return trustedType

/-- `undo(result, { expectedType })`. -/
def undoResult (requestId : RequestId) (result : EngineResult)
    (expectedType trusted : Option TypeName) : Method (Value Obj) := do
  let origType ← check (resolveTrustedType result expectedType trusted)
  code.undoRequest requestId false origType result.data

end EngineCode
end PipeX
