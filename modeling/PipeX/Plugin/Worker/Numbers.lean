/-
  PipeX.Plugin.Worker.Numbers

  `createStream` of `src/plugin/worker.ts` in `compress` mode, over the numbers of
  JavaScript.

  The only field of the format is the length in front of a record.  `createStream_refines`
  says that the stream is the one over integers, and that no such length is that of the
  end marker.
-/
import PipeX.Plugin.WireFields
import PipeX.Plugin.Worker.Stream

namespace PipeX.WorkerPoolPlugin.Numbers

open Chunked BigEndian Shadowed Wire

/-! ## The stream -/

/-- `Math.min(limits.maxFrameBytes, 0xffff_fffe)`. -/
def maxFrame (limits : AcceptedLimits) : Shadowed :=
  Shadowed.min limits.val.maxFrameBytes 0xfffffffe

structure Counters where
  outputBytes : Shadowed
  frames : Shadowed

/-- The variables of a stream in `compress` mode. -/
structure CompressState where
  inputBytes : Shadowed
  started : Bool
  counters : Counters

section Stream

variable (plugin : WorkerPoolPlugin) (limits : AcceptedLimits)

/-- `#run(data, ctx, exportName)`. -/
def runTask (data : Bytes) (exportName : Option String) : Wire StreamEvent Bytes := do
  throwIf ((data.length : Shadowed).gt (pluginInputLimit (some limits.val))) (plainError
    s!"[PipeX] Worker input exceeds {pluginInputLimit (some limits.val)} bytes")
  let answer := plugin.worker exportName data
  Wire.output (.task data answer)
  match answer with
  | .error error => Emit.fail (plugin.taskFailure exportName error)
  | .ok output => do
    throwIf ((output.length : Shadowed).gt (pluginOutputLimit (some limits.val)))
      (workerTaskError (exportName.getD "default"))
    return output

/-- `emit(stream, bytes)`. -/
def emit (counters : Counters) (bytes : Bytes) : Wire StreamEvent Counters := do
  throwIf ((bytes.length : Shadowed).gt
      ((limits.val.maxOutputBytes : Shadowed) - counters.outputBytes))
    (plainError "[PipeX] Worker stream output exceeds configured limit")
  Wire.output (.push bytes)
  return { counters with outputBytes := counters.outputBytes + bytes.length }

/-- `run(data)`. -/
def run (counters : Counters) (data : Bytes) : Wire StreamEvent (Counters × Bytes) := do
  throwIf ((counters.frames + 1).gt limits.val.maxFrames)
    (plainError "[PipeX] Worker frame count exceeds configured limit")
  let output ← runTask plugin limits data plugin.processName
  throwIf ((output.length : Shadowed).gt (maxFrame limits))
    (plainError "[PipeX] Worker frame exceeds configured limit")
  return ({ counters with frames := counters.frames + 1 }, output)

/-- The input check that opens `transform`. -/
def checkInput (inputBytes : Shadowed) (chunk : Bytes) : Wire StreamEvent Unit :=
  throwIf ((chunk.length : Shadowed).gt
      ((pluginInputLimit (some limits.val) : Shadowed) - inputBytes))
    (plainError "[PipeX] Worker stream input exceeds configured limit")

/-- One pass of the `for` loop: the next slice of the chunk. -/
def slicePass (counters : Counters) (rest : Bytes) :
    Wire StreamEvent (Progress Counters UInt8) := do
  let slice := rest.take (WorkerPoolPlugin.maxFrame limits)
  let (counters, output) ← run plugin limits counters slice
  let length ← Wire.writeUIntBE lengthBytes output.length
  let counters ← emit limits counters length
  let counters ← emit limits counters output
  return .done counters (rest.drop (WorkerPoolPlugin.maxFrame limits))

/-- The `for` loop over the slices of a chunk. -/
def sliceLoop : InputLoop Counters UInt8 (WireEvent StreamEvent) JsError where
  body := slicePass plugin limits
  consumes := by
    intro s x xs s' rest h
    simp only [slicePass] at h
    obtain ⟨ran, -, h, -⟩ := Emit.bind_eq_ok h
    obtain ⟨_, -, h, -⟩ := Emit.bind_eq_ok h
    obtain ⟨_, -, h, -⟩ := Emit.bind_eq_ok h
    obtain ⟨_, -, h, -⟩ := Emit.bind_eq_ok h
    cases h
    have hpos := maxFrame_pos limits
    simp only [List.length_drop, List.length_cons]
    omega

/-- `transform(chunk)` in `compress` mode. -/
def compressChunk (s : CompressState) (chunk : Bytes) : Wire StreamEvent CompressState := do
  checkInput limits s.inputBytes chunk
  let counters ← if s.started then pure s.counters else emit limits s.counters magic
  let counters ← (sliceLoop plugin limits).run counters chunk
  return ⟨s.inputBytes + chunk.length, true, counters⟩

/-- `flush()` in `compress` mode. -/
def compressFlush (s : CompressState) : Wire StreamEvent Unit := do
  let counters ← if s.started then pure s.counters else emit limits s.counters magic
  let _ ← emit limits counters endMarker

def compressor : Transform CompressState Bytes (WireEvent StreamEvent) JsError where
  transform := compressChunk plugin limits
  flush := compressFlush limits

def CompressState.start : CompressState := ⟨0, false, ⟨0, 0⟩⟩

/-- `createStream('compress', context)`, handed the chunks and ended. -/
def createStream (chunks : List Bytes) : Wire StreamEvent Unit :=
  (compressor plugin limits).complete CompressState.start chunks

end Stream

/-! ## Refinement -/

/-- A record length: four bytes that are not those of the end marker. -/
def RecordLength (width : ℕ) (value : FieldValue) : Prop :=
  width = lengthBytes ∧ ∃ n : ℕ, value = .number (Float64.ofNat n) ∧ n < 0xffffffff

variable (plugin : WorkerPoolPlugin) {limits : AcceptedLimits}

/-- The counters of a stream, within their limits. -/
structure SameCounters (limits : AcceptedLimits) (counters : Counters)
    (exact : WorkerPoolPlugin.Counters) : Prop where
  outputBytes : counters.outputBytes.Tracks exact.outputBytes
  outputBytes_le : exact.outputBytes ≤ limits.val.maxOutputBytes
  frames : counters.frames.Tracks exact.frames
  frames_le : exact.frames ≤ limits.val.maxFrames

structure SameState (limits : AcceptedLimits) (s : CompressState)
    (exact : WorkerPoolPlugin.CompressState) : Prop where
  inputBytes : s.inputBytes.Tracks exact.inputBytes
  inputBytes_le : exact.inputBytes ≤ pluginInputLimit (some limits.val)
  started : s.started = exact.started
  counters : SameCounters limits s.counters exact.counters

theorem maxFrame_tracks (limits : AcceptedLimits) :
    (maxFrame limits).Tracks (WorkerPoolPlugin.maxFrame limits : ℕ) := by
  have hframe : limits.val.maxFrameBytes < 2 ^ 53 := limits.property.lt_two_pow .maxFrameBytes
  have hmin := (tracks_natCast limits.val.maxFrameBytes).min (tracks_ofNat 0xfffffffe) (by omega)
    (by decide)
  rw [WorkerPoolPlugin.maxFrame, Nat.cast_min]
  exact hmin

theorem runTask_refines (data : Bytes) (exportName : Option String) :
    Refines RecordLength Eq (runTask plugin limits data exportName)
      (plugin.runTask limits data exportName) := by
  have hinput := pluginInputLimit_lt_two_pow (some limits)
  have houtput := pluginOutputLimit_lt_two_pow (some limits)
  refine throwIf_refines ((tracks_natCast _).gt_nat (tracks_natCast _) hinput) fun _ => ?_
  refine Simulates.bind (output_refines _) fun _ _ _ => ?_
  cases plugin.worker exportName data with
  | error error => exact .fail _
  | ok output =>
    exact throwIf_refines ((tracks_natCast _).gt_nat (tracks_natCast _) houtput)
      fun _ => .pure rfl

theorem emit_refines {counters : Counters} {exact : WorkerPoolPlugin.Counters}
    (h : SameCounters limits counters exact) (bytes : Bytes) :
    Refines RecordLength (SameCounters limits) (emit limits counters bytes)
      (WorkerPoolPlugin.emit limits exact bytes) := by
  have houtput : limits.val.maxOutputBytes < 2 ^ 53 := limits.property.lt_two_pow .maxOutputBytes
  have hle := h.outputBytes_le
  have hleft := (tracks_natCast limits.val.maxOutputBytes).sub h.outputBytes houtput (by omega)
  refine throwIf_refines ((tracks_natCast bytes.length).gt hleft (by omega)) fun hfits => ?_
  refine Simulates.bind (output_refines _) fun _ _ _ => ?_
  have hsum := h.outputBytes.add (tracks_natCast bytes.length)
  have hsum_le : exact.outputBytes + bytes.length ≤ limits.val.maxOutputBytes := by omega
  exact .pure { h with outputBytes := hsum, outputBytes_le := hsum_le }

theorem run_refines {counters : Counters} {exact : WorkerPoolPlugin.Counters}
    (h : SameCounters limits counters exact) (data : Bytes) :
    Refines RecordLength
      (fun ran ran' => SameCounters limits ran.1 ran'.1 ∧ ran.2 = ran'.2 ∧
        ran'.2.length < 0xffffffff)
      (run plugin limits counters data) (plugin.run limits .compress exact data) := by
  have hmaxFrames : limits.val.maxFrames < 2 ^ 53 := limits.property.lt_two_pow .maxFrames
  have hnext := h.frames.add (tracks_ofNat 1)
  refine throwIf_refines (hnext.gt_nat (tracks_natCast _) hmaxFrames)
    fun hframes => ?_
  refine Simulates.bind (runTask_refines plugin data plugin.processName) fun _ output houtput => ?_
  rw [houtput]
  have hmaxFrame : WorkerPoolPlugin.maxFrame limits ≤ 0xfffffffe := Nat.min_le_right _ _
  refine throwIf_refines ((tracks_natCast _).gt_nat (maxFrame_tracks limits) (by omega))
    fun hframe => ?_
  have hframes_le : exact.frames + 1 ≤ limits.val.maxFrames := not_lt.mp hframes
  have hlength : output.length < 0xffffffff := by omega
  exact .pure ⟨{ h with frames := hnext, frames_le := hframes_le }, rfl, hlength⟩

theorem checkInput_refines {inputBytes : Shadowed} {n : ℕ} (hinput : inputBytes.Tracks n)
    (hn : n ≤ pluginInputLimit (some limits.val)) (chunk : Bytes) :
    Refines RecordLength (fun _ _ => n + chunk.length ≤ pluginInputLimit (some limits.val))
      (checkInput limits inputBytes chunk)
      (Emit.ofExcept (WorkerPoolPlugin.checkInput limits n chunk)) := by
  have hlimit : pluginInputLimit (some limits.val) < 2 ^ 53 :=
    pluginInputLimit_lt_two_pow (some limits)
  have hleft := (tracks_natCast (pluginInputLimit (some limits.val))).sub hinput hlimit (by omega)
  exact (throwIf_refines_last ((tracks_natCast chunk.length).gt hleft (by omega))).mono
    fun _ _ _ => by omega

/-- A record: the length that goes in front of it is no end marker. -/
theorem slicePass_refines {counters : Counters} {exact : WorkerPoolPlugin.Counters}
    (h : SameCounters limits counters exact) (rest : Bytes) :
    Refines RecordLength (Simulates.SameProgress fun _ => SameCounters limits)
      (slicePass plugin limits counters rest) (plugin.slicePass limits exact rest) := by
  refine Simulates.bind (run_refines plugin h _) fun ran ran' hran => ?_
  obtain ⟨c, output⟩ := ran
  obtain ⟨c', output'⟩ := ran'
  obtain ⟨hcounters, rfl, hlength⟩ := hran
  have hfield : Refines RecordLength Eq
      (Wire.writeUIntBE lengthBytes output.length : Wire StreamEvent Bytes)
      (pure (beBytes lengthBytes output.length)) :=
    writeUIntBE_refines (tracks_natCast output.length) (lt_trans hlength (by decide)) (by decide)
      ⟨rfl, _, rfl, hlength⟩
  refine Simulates.bind_left hfield fun _ hbytes => ?_
  rw [hbytes]
  refine Simulates.bind (emit_refines hcounters _) fun _ _ hcounters => ?_
  refine Simulates.bind (emit_refines hcounters _) fun _ _ hcounters => ?_
  exact .pure (.done hcounters)

theorem compressChunk_refines {s : CompressState} {t : WorkerPoolPlugin.CompressState}
    (h : SameState limits s t) (chunk : Bytes) :
    Refines RecordLength (SameState limits) (compressChunk plugin limits s chunk)
      (plugin.compressChunk limits t chunk) := by
  refine Simulates.bind (checkInput_refines h.inputBytes h.inputBytes_le chunk) fun _ _ hle => ?_
  have hsum := h.inputBytes.add (tracks_natCast chunk.length)
  -- the slices, whether the magic has been pushed by now or before
  have hslices : ∀ counters exact, SameCounters limits counters exact →
      Refines RecordLength (SameState limits)
        ((sliceLoop plugin limits).run counters chunk >>= fun counters =>
          pure ⟨s.inputBytes + chunk.length, true, counters⟩)
        ((plugin.sliceLoop limits).run exact chunk >>= fun counters =>
          pure ⟨t.inputBytes + chunk.length, true, counters⟩) := by
    intro counters exact hcounters
    have hloop := Simulates.run (sliceLoop plugin limits) (plugin.sliceLoop limits)
      (fun _ _ input _ h => slicePass_refines plugin h input) chunk hcounters
    exact hloop.bind fun _ _ hcounters => .pure ⟨hsum, hle, rfl, hcounters⟩
  refine Simulates.ite (by rw [h.started]) (fun _ => ?_) fun _ => ?_
  · exact hslices _ _ h.counters
  · exact Simulates.bind (emit_refines h.counters magic) hslices

theorem compressFlush_refines {s : CompressState} {t : WorkerPoolPlugin.CompressState}
    (h : SameState limits s t) :
    Refines RecordLength Eq (compressFlush limits s)
      (WorkerPoolPlugin.compressFlush limits t) := by
  have hend : ∀ counters exact, SameCounters limits counters exact →
      Refines RecordLength Eq (emit limits counters endMarker >>= fun _ => pure ())
        (WorkerPoolPlugin.emit limits exact endMarker >>= fun _ => pure ()) := by
    intro counters exact hcounters
    exact Simulates.bind (emit_refines hcounters endMarker) fun _ _ _ => .pure rfl
  refine Simulates.ite (by rw [h.started]) (fun _ => ?_) fun _ => ?_
  · exact hend _ _ h.counters
  · exact Simulates.bind (emit_refines h.counters magic) hend

theorem createStream_refines (limits : AcceptedLimits) (chunks : List Bytes) :
    Refines RecordLength Eq (createStream plugin limits chunks)
      (plugin.createStream limits .compress chunks) := by
  have hcounters : SameCounters limits ⟨0, 0⟩ ⟨0, 0⟩ :=
    ⟨tracks_ofNat 0, Nat.zero_le _, tracks_ofNat 0, Nat.zero_le _⟩
  have hstart : SameState limits CompressState.start WorkerPoolPlugin.CompressState.start :=
    ⟨tracks_ofNat 0, Nat.zero_le _, rfl, hcounters⟩
  exact Simulates.complete (R := SameState limits)
    (fun _ _ chunk h => compressChunk_refines plugin h chunk)
    (fun _ _ h => compressFlush_refines h) chunks hstart

end PipeX.WorkerPoolPlugin.Numbers
