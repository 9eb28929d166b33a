/-
  PipeX.Plugin.Worker.Stream

  `WorkerPoolPlugin.createStream` of `src/plugin/worker.ts`: the PXWK format.

  A stream cuts every chunk it is given into slices, hands each slice to a worker
  and frames the answers by their lengths; in the other direction it collects
  frames and hands each of them to the reverse export.  The pool takes every task
  here and nothing is cancelled, so a task is a call of the worker's export.
-/
import PipeX.Core.DataEngine.Limits
import PipeX.Core.Plugin
import PipeX.Lib.BigEndian
import PipeX.Lib.Chunked

namespace PipeX

open Chunked BigEndian

/-- What `WorkerPoolPlugin` has from its options, with the exports of the worker
    module; the one under no name is the default export. -/
structure WorkerPoolPlugin where
  processName : Option String
  reverseName : Option String
  maxQueue : Nat
  worker : Option String → Bytes → Except JsError Bytes

/-- What can be seen of a stream from outside: the bytes it pushes, and the tasks it
    hands to the pool with the worker's answers. -/
inductive StreamEvent where
  | push (bytes : Bytes)
  | task (data : Bytes) (answer : Except JsError Bytes)

namespace StreamEvent

def pushed : StreamEvent → Bytes
  | push bytes => bytes
  | task _ _ => []

def taskData : StreamEvent → Option Bytes
  | push _ => none
  | task data _ => some data

def taskAnswer : StreamEvent → Option (Except JsError Bytes)
  | push _ => none
  | task _ answer => some answer

end StreamEvent

namespace WorkerPoolPlugin

/-- `PXWK` and the version. -/
def magic : Bytes := [0x50, 0x58, 0x57, 0x4b, 1]
def endMarker : Bytes := [0xff, 0xff, 0xff, 0xff]
def lengthBytes : Nat := 4

/-! ## One task -/

section Task

variable (plugin : WorkerPoolPlugin) (limits : AcceptedLimits)

/-- What `#run` makes of an error that the worker throws. -/
def taskFailure (exportName : Option String) (error : JsError) : JsError :=
  if error.message = "Task queue is at limit" ∨
      error.message = "No task queue available and all Workers are busy" then
    workerQueueFullError plugin.maxQueue
  else
    workerTaskError (exportName.getD "default")

/-- `#run(data, ctx, exportName)`. -/
def runTask (data : Bytes) (exportName : Option String) : Emit StreamEvent JsError Bytes := do
  if data.length > pluginInputLimit (some limits.val) then
    Emit.fail (plainError
      s!"[PipeX] Worker input exceeds {pluginInputLimit (some limits.val)} bytes")
  let answer := plugin.worker exportName data
  Emit.push (.task data answer)
  match answer with
  | .error error => Emit.fail (plugin.taskFailure exportName error)
  | .ok output => do
    if output.length > pluginOutputLimit (some limits.val) then
      Emit.fail (workerTaskError (exportName.getD "default"))
    return output

/-- `process(data, ctx)`. -/
def process (data : Bytes) : Emit StreamEvent JsError Bytes :=
  plugin.runTask limits data plugin.processName

/-- `reverse(data, ctx)`. -/
def reverse (data : Bytes) : Emit StreamEvent JsError Bytes :=
  match plugin.reverseName with
  | none => Emit.fail (unsupportedReverseError "worker-pool@5.0.0")
  | some reverseName => plugin.runTask limits data (some reverseName)

end Task

/-! ## The stream -/

/-- `Math.min(limits.maxFrameBytes, 0xffff_fffe)`. -/
def maxFrame (limits : AcceptedLimits) : Nat := min limits.val.maxFrameBytes 0xfffffffe

theorem maxFrame_pos (limits : AcceptedLimits) : 0 < maxFrame limits := by
  have h : 1 ≤ limits.val.maxFrameBytes := limits.property.positive .maxFrameBytes (by decide)
  simp only [maxFrame]
  omega

/-- The buffer that is being filled. -/
inductive Stage where
  | magic (received : Partial UInt8 magic.length)
  | length (received : Partial UInt8 lengthBytes)
  | payload (length : Nat) (received : Partial UInt8 length)

def noLength : Partial UInt8 lengthBytes := Partial.empty (by decide)

/-- The counters of both directions. -/
structure Counters where
  outputBytes : Nat
  frames : Nat

/-- The variables of a stream in `compress` mode. -/
structure CompressState where
  inputBytes : Nat
  started : Bool
  counters : Counters

/-- The variables of the loop in `decompress` mode; `started` is that the stage is
    no longer `magic`. -/
structure WireState where
  counters : Counters
  ended : Bool
  stage : Stage

/-- The variables of a stream in `decompress` mode. -/
structure DecompressState where
  inputBytes : Nat
  wire : WireState

section Stream

variable (plugin : WorkerPoolPlugin) (limits : AcceptedLimits)

/-- `emit(stream, bytes)`. -/
def emit (counters : Counters) (bytes : Bytes) : Emit StreamEvent JsError Counters := do
  if (bytes.length : Int) > (limits.val.maxOutputBytes : Int) - counters.outputBytes then
    Emit.fail (plainError "[PipeX] Worker stream output exceeds configured limit")
  Emit.push (.push bytes)
  return { counters with outputBytes := counters.outputBytes + bytes.length }

/-- `run(data)`. -/
def run (mode : StreamMode) (counters : Counters) (data : Bytes) :
    Emit StreamEvent JsError (Counters × Bytes) := do
  if counters.frames + 1 > limits.val.maxFrames then
    Emit.fail (plainError "[PipeX] Worker frame count exceeds configured limit")
  let output ←
    match mode with
    | .decompress => plugin.reverse limits data
    | .compress => plugin.process limits data
  if output.length > maxFrame limits then
    Emit.fail (plainError "[PipeX] Worker frame exceeds configured limit")
  return ({ counters with frames := counters.frames + 1 }, output)

/-- The input check that opens `transform`. -/
def checkInput (inputBytes : Nat) (chunk : Bytes) : Except JsError Unit :=
  if (chunk.length : Int) > (pluginInputLimit (some limits.val) : Int) - inputBytes then
    .error (plainError "[PipeX] Worker stream input exceeds configured limit")
  else
    .ok ()

/-! ### Forward -/

/-- One pass of the `for` loop: the next slice of the chunk. -/
def slicePass (counters : Counters) (rest : Bytes) :
    Emit StreamEvent JsError (Progress Counters UInt8) := do
  let (counters, output) ← plugin.run limits .compress counters (rest.take (maxFrame limits))
  -- the length fits: `run` lets through `maxFrame` bytes at most
  let counters ← emit limits counters (beBytes lengthBytes output.length)
  let counters ← emit limits counters output
  return .done counters (rest.drop (maxFrame limits))

/-- The `for` loop over the slices of a chunk. -/
def sliceLoop : InputLoop Counters UInt8 StreamEvent JsError where
  body := slicePass plugin limits
  consumes := by
    intro s x xs s' rest h
    simp only [slicePass] at h
    obtain ⟨ran, -, h, -⟩ := Emit.bind_eq_ok h
    obtain ⟨_, -, h, -⟩ := Emit.bind_eq_ok h
    obtain ⟨_, -, h, -⟩ := Emit.bind_eq_ok h
    cases h
    have hpos := maxFrame_pos limits
    simp only [List.length_drop, List.length_cons]
    omega

/-- `transform(chunk)` in `compress` mode. -/
def compressChunk (s : CompressState) (chunk : Bytes) : Emit StreamEvent JsError CompressState := do
  checkInput limits s.inputBytes chunk
  let counters ← if s.started then pure s.counters else emit limits s.counters magic
  let counters ← (plugin.sliceLoop limits).run counters chunk
  return ⟨s.inputBytes + chunk.length, true, counters⟩

/-- `flush()` in `compress` mode. -/
def compressFlush (s : CompressState) : Emit StreamEvent JsError Unit := do
  let counters ← if s.started then pure s.counters else emit limits s.counters magic
  let _ ← emit limits counters endMarker

def compressor : Transform CompressState Bytes StreamEvent JsError where
  transform := plugin.compressChunk limits
  flush := compressFlush limits

/-! ### Back -/

/-- Copy into `Buffer.alloc(length)`; a buffer of no bytes is full before that. -/
def fillPayload (length : Nat) (input : Bytes) : Fill UInt8 length :=
  if h : 0 < length then (Partial.empty h).fill input else .full [] input

/-- The second half of a pass: a payload that is complete goes to a worker. -/
def payloadPass (s : WireState) {length : Nat} (fill : Fill UInt8 length) :
    Emit StreamEvent JsError (Progress WireState UInt8) :=
  match fill with
  | .more p => pure (.more { s with stage := .payload length p })
  | .full payload rest => do
    let (counters, output) ← plugin.run limits .decompress s.counters payload
    let counters ← emit limits counters output
    return .done { s with counters, stage := .length noLength } rest

/-- One pass of the `while` loop. -/
def wirePass (s : WireState) (input : Bytes) : Emit StreamEvent JsError (Progress WireState UInt8) :=
  if s.ended then
    Emit.fail (plainError "[PipeX] Worker stream has trailing bytes")
  else
    match s.stage with
    | .magic received =>
      match received.fill input with
      | .more p => pure (.more { s with stage := .magic p })
      | .full header rest =>
        if header ≠ magic then
          Emit.fail (plainError "[PipeX] Invalid worker stream format")
        else
          pure (.done { s with stage := .length noLength } rest)
    | .length received =>
      match received.fill input with
      | .more p => pure (.more { s with stage := .length p })
      | .full header rest =>
        if beNat header = 0xffffffff then
          pure (.done { s with ended := true, stage := .length noLength } rest)
        else if beNat header > maxFrame limits then
          Emit.fail (plainError "[PipeX] Worker frame exceeds configured limit")
        else
          payloadPass plugin limits s (fillPayload (beNat header) rest)
    | .payload _ received => payloadPass plugin limits s (received.fill input)

theorem length_fillPayload {length : Nat} {input payload rest : Bytes}
    (h : fillPayload length input = .full payload rest) : rest.length ≤ input.length := by
  simp only [fillPayload] at h
  split at h
  · cases input with
    | nil =>
      rename_i hpos
      rw [Partial.fill_empty_more hpos (by simpa using hpos)] at h
      cases h
    | cons x xs => exact Nat.le_succ_of_le (Partial.length_rest_lt h)
  · cases h
    exact Nat.le_refl _

theorem payloadPass_rest {s s' : WireState} {length : Nat} {fill : Fill UInt8 length}
    {rest : Bytes} (h : (payloadPass plugin limits s fill).result = .ok (.done s' rest)) :
    ∃ payload, fill = .full payload rest := by
  simp only [payloadPass] at h
  split at h
  · cases h
  · obtain ⟨ran, -, h, -⟩ := Emit.bind_eq_ok h
    obtain ⟨_, -, h, -⟩ := Emit.bind_eq_ok h
    cases h
    exact ⟨_, rfl⟩

/-- The `while` loop over a chunk. -/
def wireLoop : InputLoop WireState UInt8 StreamEvent JsError where
  body := wirePass plugin limits
  consumes := by
    intro s x xs s' rest h
    simp only [wirePass] at h
    split at h
    · cases h
    split at h
    -- a magic or a length that is complete has used up an item
    · split at h
      · cases h
      rename_i hfill
      split at h
      · cases h
      · cases h
        exact Partial.length_rest_lt hfill
    · split at h
      · cases h
      rename_i hfill
      have hrest := Partial.length_rest_lt hfill
      split at h
      · cases h
        exact hrest
      split at h
      · cases h
      -- the payload may be empty, but the length in front of it was not
      · obtain ⟨payload, hpayload⟩ := payloadPass_rest plugin limits h
        have := length_fillPayload hpayload
        omega
    · obtain ⟨payload, hpayload⟩ := payloadPass_rest plugin limits h
      exact Partial.length_rest_lt hpayload

/-- `transform(chunk)` in `decompress` mode. -/
def decompressChunk (s : DecompressState) (chunk : Bytes) :
    Emit StreamEvent JsError DecompressState := do
  checkInput limits s.inputBytes chunk
  let wire ← (plugin.wireLoop limits).run s.wire chunk
  return ⟨s.inputBytes + chunk.length, wire⟩

/-- `payload` is set. -/
def Stage.inPayload : Stage → Bool
  | .magic _ => false
  | .length _ => false
  | .payload _ _ => true

/-- `headerBytes`. -/
def Stage.headerBytes : Stage → Nat
  | .magic received => received.filled.length
  | .length received => received.filled.length
  | .payload _ _ => 0

/-- `flush()` in `decompress` mode. -/
def decompressFlush (s : DecompressState) : Emit StreamEvent JsError Unit :=
  if s.wire.ended = false ∨ s.wire.stage.inPayload ∨ s.wire.stage.headerBytes ≠ 0 then
    Emit.fail (plainError "[PipeX] Incomplete worker stream")
  else
    pure ()

def decompressor : Transform DecompressState Bytes StreamEvent JsError where
  transform := plugin.decompressChunk limits
  flush := decompressFlush

def CompressState.start : CompressState := ⟨0, false, ⟨0, 0⟩⟩

def WireState.start : WireState := ⟨⟨0, 0⟩, false, .magic (Partial.empty (by decide))⟩

def DecompressState.start : DecompressState := ⟨0, WireState.start⟩

/-- `createStream(mode, context)`, handed the chunks and ended; the limits are
    `context?.limits ?? DEFAULT_LIMITS`. -/
def createStream (mode : StreamMode) (chunks : List Bytes) : Emit StreamEvent JsError Unit :=
  match mode with
  | .compress => (plugin.compressor limits).complete CompressState.start chunks
  | .decompress =>
    match plugin.reverseName with
    | none => Emit.fail (unsupportedReverseError "worker-pool")
    | some _ => (plugin.decompressor limits).complete DecompressState.start chunks

end Stream

/-- The bytes that came out of a stream. -/
def delivered (stream : Emit StreamEvent JsError Unit) : Bytes :=
  stream.out.flatMap StreamEvent.pushed

/-- The inputs of its tasks, in order. -/
def taskInputs (stream : Emit StreamEvent JsError Unit) : List Bytes :=
  stream.out.filterMap StreamEvent.taskData

/-- The answers to its tasks, in order. -/
def taskAnswers (stream : Emit StreamEvent JsError Unit) : List (Except JsError Bytes) :=
  stream.out.filterMap StreamEvent.taskAnswer

end WorkerPoolPlugin
end PipeX
