/-
  PipeX.Core.Controllers.StreamController

  `pipe`, `pack` and `unpack` of `src/core/controllers/StreamController.ts`.
-/
import PipeX.Core.FrameLimits.Transform
import PipeX.Core.TransformChain

namespace PipeX

open DataEngine Chunked FrameLimits

/-- The streams of msgpackr, and the one object that is built to be packed. -/
structure MsgpackStreams (Obj : Type) where
  /-- the literal that `buildManifest` returns -/
  literal : PipeXManifest → Value Obj
  State : Type
  /-- `UnpackrStream` -/
  unpackr : Transform State Bytes (Value Obj) JsError
  start : State

/-! ## The streams of msgpackr -/

section Streams

variable {Obj : Type}

/-- `createPackrStream()`; it has the options of `PACKR`. -/
def createPackrStream (host : Host Obj) : Transform Unit (Value Obj) Bytes JsError :=
  each fun value => do
    let bytes ← host.pack value
    Emit.push bytes

/-- `createUnpackrStream(maxInputBytes)`, which is a `GuardedUnpackrStream`; the first
    half of the state is `#receivedBytes`. -/
def createUnpackrStream (streams : MsgpackStreams Obj) (maxInputBytes : Nat) :
    Transform (Nat × streams.State) Bytes (Value Obj) JsError where
  transform s chunk :=
    if chunk.length > maxInputBytes - s.1 then
      Emit.fail (plainError s!"[PipeX] Serialized input exceeds {maxInputBytes} bytes")
    else do
      let unpacked := streams.unpackr.transform s.2 chunk
      let state ← (⟨unpacked.out, unpacked.result.mapError fun _ =>
        plainError "[PipeX] Invalid MessagePack input"⟩ : Emit (Value Obj) JsError streams.State)
      return (s.1 + chunk.length, state)
  flush s := streams.unpackr.flush s.2

end Streams

namespace EngineCode

variable {Obj : Type} (code : EngineCode Obj)

/-! ## pipe -/

/-- The `try` block of `pipe`, for a destination that takes everything; the result is
    what it has been handed. -/
def pipeBody (requestId : RequestId) (reverse : Bool) (source : List Bytes) (engine : DataEngine) :
    Except JsError (List Bytes) := do
  let limits := engine.limits
  let transforms ←
    buildTransformChain code.plugins (streamMode reverse) reverse ⟨requestId, limits⟩
  let delivered ← runStages
    ([(buildByteLimitTransform limits.maxInputBytes "input").complete 0] ++ transforms ++
      [(buildByteLimitTransform limits.maxOutputBytes "output").complete 0]) source
  code.emitAudit engine requestId (if reverse then .reverse else .process) .stream
  return delivered

def pipe (requestId : RequestId) (reverse : Bool) (source : List Bytes) : Method (List Bytes) := do
  if code.schema.isSome then
    throw (plainError "[PipeX] Global object schemas cannot validate raw byte streams")
  request requestId id (code.pipeBody requestId reverse source)

/-! ## pack and unpack -/

/-- `Math.min(Number.MAX_SAFE_INTEGER, maxFrames + 1)`; the manifest is a frame too. -/
def wireFrames (limits : EngineLimits) : Nat := min maxSafeInteger (limits.maxFrames + 1)

/-- `runPipeline(input, transforms, output)` of `pack`, for values that are written to
    `input`; `ts` is what `Date.now()` returns. -/
def packPipeline (streams : MsgpackStreams Obj) (limits : EngineLimits) (ts : JsDouble)
    (values : List (Value Obj)) : Except JsError (List Bytes) := do
  -- the source packs the manifest in front of the pipeline, where nothing can fail
  let frame ← code.host.pack (streams.literal ⟨[], ts⟩)
  let values ← (passThrough.complete () values).completed
  let values ← ((buildObjectLimitTransform limits.maxFrames).complete 0 values).completed
  let values ← ((buildKnownValueByteLimitTransform code.host limits.maxFrameBytes
    "MessagePack frame").complete () values).completed
  let chunks ← ((createPackrStream code.host).complete () values).completed
  let chunks ← ((buildManifestHeaderTransform frame).complete false (handOver chunks)).completed
  let chunks ← ((buildFrameLimitTransform limits.maxFrameBytes (wireFrames limits)).complete
    .initial (handOver chunks)).completed
  ((buildByteLimitTransform limits.maxOutputBytes "output").complete 0 (handOver chunks)).completed

/-- `pack`; the result is what comes out of the stream. -/
def pack (streams : MsgpackStreams Obj) (requestId : RequestId) (ts : JsDouble)
    (values : List (Value Obj)) : Method (List Bytes) :=
  request requestId id fun engine => do
    let chunks ← code.packPipeline streams engine.limits ts values
    code.emitAudit engine requestId .pack .stream
    return chunks

/-- The callback that `unpack` takes a manifest with; the listeners of the event cannot
    fail. -/
def onManifest (m : PipeXManifest) : Except JsError Unit :=
  if m.plugins.length ≠ 0 then
    .error (plainError "[PipeX] Manifest plugin chain does not match the configured engine")
  else
    .ok ()

/-- `validate` of `unpack`. -/
def validateTransform : Transform Unit (Value Obj) (Value Obj) JsError :=
  each fun value => do
    code.validate value
    forward value

/-- `runPipeline(input, transforms, output)` of `unpack`. -/
def unpackPipeline (streams : MsgpackStreams Obj) (limits : EngineLimits) (input : List Bytes) :
    Except JsError (List (Value Obj)) := do
  let chunks ← ((buildByteLimitTransform limits.maxInputBytes "input").complete 0
    (handOver input)).completed
  let frames ← ((buildFrameLimitTransform limits.maxFrameBytes (wireFrames limits)).complete
    .initial (handOver chunks)).completed
  let values ← ((createUnpackrStream streams limits.maxInputBytes).complete (0, streams.start)
    (handOver frames)).completed
  let values ← ((buildManifestExtractTransform code.host onManifest).complete false
    values).completed
  let values ← ((buildObjectLimitTransform limits.maxFrames).complete 0 values).completed
  (code.validateTransform.complete () values).completed

def unpack (streams : MsgpackStreams Obj) (requestId : RequestId) (input : List Bytes) :
    Method (List (Value Obj)) :=
  request requestId id fun engine => do
    let values ← code.unpackPipeline streams engine.limits input
    code.emitAudit engine requestId .unpack .stream
    return values

end EngineCode
end PipeX
