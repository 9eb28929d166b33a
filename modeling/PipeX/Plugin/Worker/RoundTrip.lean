/-
  PipeX.Plugin.Worker.RoundTrip

  A PXWK stream comes back task by task, however it is cut in transport.

  * `complete_eq_run` — a `decompress` stream cannot see where its input was cut.
  * `wireLoop_frames`, `wireLoop_frames_fails` — the frames of a list of tasks give
    back their slices, as long as these fit under the output limit.
-/
import PipeX.Plugin.Worker.Compression

namespace PipeX.WorkerPoolPlugin

open Chunked BigEndian

variable (plugin : WorkerPoolPlugin) (limits : AcceptedLimits)

/-! ## Chunks do not matter -/

@[simp] theorem wireLoop_body : (plugin.wireLoop limits).body = plugin.wirePass limits := rfl

theorem fillPayload_append_of_more {length : Nat} {p : Partial UInt8 length} {a : Bytes} (b : Bytes)
    (h : fillPayload length a = .more p) : fillPayload length (a ++ b) = p.fill b := by
  simp only [fillPayload] at h ⊢
  split at h
  · rw [dif_pos ‹_›]
    exact Partial.fill_append_of_more b h
  · cases h

theorem fillPayload_append_of_full {length : Nat} {a payload rest : Bytes} (b : Bytes)
    (h : fillPayload length a = .full payload rest) :
    fillPayload length (a ++ b) = .full payload (rest ++ b) := by
  simp only [fillPayload] at h ⊢
  split at h
  · rw [dif_pos ‹_›]
    exact Partial.fill_append_of_full b h
  · rw [dif_neg ‹_›]
    cases h
    rfl

/-- The second half of a pass overwrites the stage. -/
theorem payloadPass_stage (counters : Counters) (ended : Bool) (stage stage' : Stage) {length : Nat}
    (fill : Fill UInt8 length) :
    payloadPass plugin limits ⟨counters, ended, stage⟩ fill =
      payloadPass plugin limits ⟨counters, ended, stage'⟩ fill := by
  cases fill <;> rfl

/-- A payload that is cut short goes to its worker once the rest has come. -/
theorem payloadPass_more (s : WireState) (hs : s.ended = false) {length : Nat}
    (p : Partial UInt8 length) (b : Bytes) :
    payloadPass plugin limits s (p.fill b) =
      payloadPass plugin limits s (.more p) >>= (plugin.wireLoop limits).resume b := by
  simp only [payloadPass, pure_bind, InputLoop.resume_more, wireLoop_body, wirePass, hs,
    Bool.false_eq_true, if_false]

theorem payloadPass_full (s : WireState) {length : Nat} (payload rest b : Bytes) :
    payloadPass plugin limits s (.full payload (rest ++ b) : Fill UInt8 length) =
      payloadPass plugin limits s (.full payload rest : Fill UInt8 length) >>=
        (plugin.wireLoop limits).resume b := by
  simp only [payloadPass, bind_assoc, pure_bind, InputLoop.resume_done]

theorem wireLoop_splits : (plugin.wireLoop limits).Splits := by
  intro s a b _ _
  -- wherever the stage of `s` is, `a` fills it or leaves it partial, and `b` goes on from there
  simp only [wireLoop_body]
  obtain ⟨counters, ended, stage⟩ := s
  cases ended with
  | true => rfl
  | false =>
  cases stage with
  | magic received =>
    cases hfill : received.fill a with
    | more p =>
      simp only [wirePass, hfill, Partial.fill_append_of_more b hfill, pure_bind,
        Bool.false_eq_true, if_false, InputLoop.resume_more, wireLoop_body]
    | full header rest =>
      simp only [wirePass, hfill, Partial.fill_append_of_full b hfill, Bool.false_eq_true, if_false]
      split <;> rfl
  | length received =>
    cases hfill : received.fill a with
    | more p =>
      simp only [wirePass, hfill, Partial.fill_append_of_more b hfill, pure_bind,
        Bool.false_eq_true, if_false, InputLoop.resume_more, wireLoop_body,
        payloadPass_stage plugin limits counters false (.length received) (.length p)]
    | full header rest =>
      simp only [wirePass, hfill, Partial.fill_append_of_full b hfill, Bool.false_eq_true, if_false]
      -- the end marker, and a length beyond the limit
      split
      · rfl
      split
      · rfl
      cases hpayload : fillPayload (beNat header) rest with
      | more p =>
        rw [fillPayload_append_of_more b hpayload]
        exact payloadPass_more plugin limits _ rfl p b
      | full payload rest' =>
        rw [fillPayload_append_of_full b hpayload]
        exact payloadPass_full plugin limits _ payload rest' b
  | payload length received =>
    simp only [wirePass, Bool.false_eq_true, if_false]
    cases hfill : received.fill a with
    | more p =>
      rw [Partial.fill_append_of_more b hfill]
      exact payloadPass_more plugin limits _ rfl p b
    | full payload rest =>
      rw [Partial.fill_append_of_full b hfill]
      exact payloadPass_full plugin limits _ payload rest b

/-- Under the input limit, all chunks and the end of the stream are one run of the
    loop and its flush. -/
theorem complete_eq_run (s : DecompressState) (pieces : List Bytes)
    (h : s.inputBytes + pieces.flatten.length ≤ pluginInputLimit (some limits.val)) :
    (plugin.decompressor limits).complete s pieces =
      (plugin.wireLoop limits).run s.wire pieces.flatten >>= fun wire =>
        decompressFlush ⟨s.inputBytes + pieces.flatten.length, wire⟩ := by
  induction pieces generalizing s with
  | nil => rfl
  | cons piece pieces ih =>
    rw [List.flatten_cons, List.length_append] at h
    have hcheck : checkInput limits s.inputBytes piece = .ok () := by
      apply if_neg
      omega
    -- the input limit passes the piece on to the loop
    have hcons : (plugin.decompressor limits).complete s (piece :: pieces) =
        (plugin.wireLoop limits).run s.wire piece >>= fun wire =>
          (plugin.decompressor limits).complete ⟨s.inputBytes + piece.length, wire⟩ pieces := by
      simp only [Transform.complete, Transform.feed_cons, bind_assoc]
      simp only [decompressor, decompressChunk, bind_assoc, pure_bind]
      rw [hcheck]
      rfl
    rw [hcons, List.flatten_cons, (wireLoop_splits plugin limits).run_append, bind_assoc]
    refine Emit.bind_congr' fun wire _ => ?_
    rw [ih ⟨s.inputBytes + piece.length, wire⟩ (by simp only; omega), List.length_append,
      Nat.add_assoc]

/-! ## What `decompress` reads -/

/-- The loop between two frames. -/
def boundary (counters : Counters) : WireState := ⟨counters, false, .length noLength⟩

theorem fillPayload_payload {length : Nat} {payload : Bytes} (h : payload.length = length)
    (rest : Bytes) : fillPayload length (payload ++ rest) = .full payload rest := by
  by_cases hpos : 0 < length
  · simp only [fillPayload, dif_pos hpos]
    exact Partial.fill_empty_append hpos h rest
  · have hnil : payload = [] := List.length_eq_zero_iff.mp (by omega)
    simp only [fillPayload, dif_neg hpos, hnil, List.nil_append]

/-- The length in front of a frame is read back, and it is not the reserved one. -/
theorem wirePass_frame {result : Bytes} (h : result.length ≤ maxFrame limits) (counters : Counters)
    (rest : Bytes) :
    plugin.wirePass limits (boundary counters) (encodeFrame result ++ rest) =
      payloadPass plugin limits (boundary counters)
        (.full result rest : Fill UInt8 (beNat (beBytes lengthBytes result.length))) := by
  have hrange : result.length ≤ 0xfffffffe := Nat.le_trans h (Nat.min_le_right _ _)
  have hlength : beNat (beBytes lengthBytes result.length) = result.length :=
    beNat_beBytes (Nat.lt_of_le_of_lt hrange (by decide))
  -- the length field is complete, and holds the length of the payload
  have hfill : noLength.fill (encodeFrame result ++ rest) =
      .full (beBytes lengthBytes result.length) (result ++ rest) := by
    rw [encodeFrame, List.append_assoc]
    exact Partial.fill_empty_append (by decide) (beBytes_length _ _) _
  -- it is not the end marker, and within the bound
  have hend : ¬ beNat (beBytes lengthBytes result.length) = 0xffffffff := by
    rw [hlength]
    omega
  have hmax : ¬ beNat (beBytes lengthBytes result.length) > maxFrame limits := by
    rw [hlength]
    exact Nat.not_lt_of_le h
  simp only [wirePass, boundary, Bool.false_eq_true, if_false, hfill, if_neg hend, if_neg hmax]
  rw [fillPayload_payload hlength.symm]

theorem encodeFrame_append_ne_nil (result rest : Bytes) : encodeFrame result ++ rest ≠ [] := by
  intro hnil
  have hlength := congrArg List.length hnil
  simp [lengthBytes] at hlength

theorem wireLoop_magic (rest : Bytes) :
    (plugin.wireLoop limits).run WireState.start (magic ++ rest) =
      (plugin.wireLoop limits).run (boundary ⟨0, 0⟩) rest := by
  have hfill := Partial.fill_empty_append (by decide : 0 < magic.length) rfl rest
  rw [InputLoop.run_of_ne_nil _ _ (by simp [magic]), wireLoop_body]
  simp only [wirePass, WireState.start, Bool.false_eq_true, if_false, hfill, ne_eq, not_true_eq_false,
    pure_bind, InputLoop.next_done, boundary]

/-- The end marker is no length. -/
theorem wireLoop_endMarker (counters : Counters) :
    (plugin.wireLoop limits).run (boundary counters) endMarker =
      pure ⟨counters, true, .length noLength⟩ := by
  have hfill : noLength.fill endMarker = .full endMarker [] := by rfl
  have hend : beNat endMarker = 0xffffffff := by decide
  rw [InputLoop.run_of_ne_nil _ _ (by simp [endMarker]), wireLoop_body]
  simp only [wirePass, boundary, Bool.false_eq_true, if_false, hfill, hend, if_true, pure_bind,
    InputLoop.next_done, InputLoop.run_nil]

variable {reverseName : String} (hname : plugin.reverseName = some reverseName)

include hname

/-- One frame whose output fits. -/
theorem wireLoop_frame {task : Bytes × Bytes} (h : Restored plugin limits reverseName task)
    {counters : Counters}
    (hframes : counters.frames + 1 ≤ limits.val.maxFrames)
    (hout : counters.outputBytes + task.1.length ≤ limits.val.maxOutputBytes) (rest : Bytes) :
    (plugin.wireLoop limits).run (boundary counters) (encodeFrame task.2 ++ rest) =
      ⟨backEvents task, .ok ⟨counters.outputBytes + task.1.length, counters.frames + 1⟩⟩ >>=
        fun counters => (plugin.wireLoop limits).run (boundary counters) rest := by
  have hrun := run_decompress_of_le plugin limits hname hframes h (by omega)
  rw [InputLoop.run_of_ne_nil _ _ (encodeFrame_append_ne_nil _ _), wireLoop_body,
    wirePass_frame plugin limits h.payload_le_frame]
  -- the payload is complete, so its task runs and its output is counted
  have hpass : payloadPass plugin limits (boundary counters) (.full task.2 rest :
      Fill UInt8 (beNat (beBytes lengthBytes task.2.length))) =
        ⟨backEvents task, .ok (.done
          (boundary ⟨counters.outputBytes + task.1.length, counters.frames + 1⟩) rest)⟩ := by
    simp only [payloadPass, boundary]
    rw [Emit.bind_ok (congrArg Emit.result hrun), hrun]
    simp only [emit_of_le limits { counters with frames := counters.frames + 1 } hout]
    rfl
  rw [hpass, Emit.bind_ok rfl, Emit.bind_ok rfl]
  rfl

/-- One frame whose output does not. -/
theorem wireLoop_frame_fails {task : Bytes × Bytes} (h : Restored plugin limits reverseName task)
    {counters : Counters}
    (hframes : counters.frames + 1 ≤ limits.val.maxFrames)
    (hout : limits.val.maxOutputBytes < counters.outputBytes + task.1.length) (rest : Bytes) :
    ¬ ((plugin.wireLoop limits).run (boundary counters) (encodeFrame task.2 ++ rest)).Succeeds := by
  rw [InputLoop.run_of_ne_nil _ _ (encodeFrame_append_ne_nil _ _), wireLoop_body,
    wirePass_frame plugin limits h.payload_le_frame]
  rintro ⟨s, hs⟩
  obtain ⟨p, hpass, -, -⟩ := Emit.bind_eq_ok hs
  simp only [payloadPass, boundary] at hpass
  obtain ⟨ran, hran, hemit, -⟩ := Emit.bind_eq_ok hpass
  by_cases hslice : task.1.length ≤ limits.val.maxOutputBytes
  · -- the output alone would fit: the stream's total is what refuses it
    rw [run_decompress_of_le plugin limits hname hframes h hslice] at hran
    cases hran
    obtain ⟨c, hc, -, -⟩ := Emit.bind_eq_ok hemit
    exact emit_fails limits { counters with frames := counters.frames + 1 } hout
      ⟨c, hc⟩
  · exact run_decompress_fails plugin limits hname h.answer (Nat.lt_of_not_le hslice) ⟨ran, hran⟩

variable {tasks : List (Bytes × Bytes)}
  (hrestored : ∀ task ∈ tasks, Restored plugin limits reverseName task)

include hrestored

/-- The frames of a list of tasks give back their slices. -/
theorem wireLoop_frames (counters : Counters)
    (hframes : counters.frames + tasks.length ≤ limits.val.maxFrames)
    (hout : counters.outputBytes + (tasks.flatMap Prod.fst).length ≤ limits.val.maxOutputBytes) :
    ∃ counters', (plugin.wireLoop limits).run (boundary counters)
        (encodeFrames tasks ++ endMarker) =
      ⟨tasks.flatMap backEvents, .ok ⟨counters', true, .length noLength⟩⟩ := by
  induction tasks generalizing counters with
  | nil => exact ⟨counters, wireLoop_endMarker plugin limits counters⟩
  | cons task tasks ih =>
    simp only [List.length_cons, List.flatMap_cons, List.length_append] at hframes hout
    obtain ⟨counters', hrest⟩ := ih (fun t ht => hrestored t (List.mem_cons_of_mem _ ht))
      ⟨counters.outputBytes + task.1.length, counters.frames + 1⟩ (by simp only; omega) (by simp only; omega)
    refine ⟨counters', ?_⟩
    rw [encodeFrames_cons, List.append_assoc,
      wireLoop_frame plugin limits hname (hrestored task (List.mem_cons_self ..)) (by omega)
        (by omega), Emit.bind_ok rfl, hrest]
    rfl

/-- Slices that exceed the output limit together do not all come back. -/
theorem wireLoop_frames_fails (counters : Counters)
    (hframes : counters.frames + tasks.length ≤ limits.val.maxFrames)
    (hle : counters.outputBytes ≤ limits.val.maxOutputBytes)
    (hout : limits.val.maxOutputBytes < counters.outputBytes + (tasks.flatMap Prod.fst).length) :
    ¬ ((plugin.wireLoop limits).run (boundary counters)
        (encodeFrames tasks ++ endMarker)).Succeeds := by
  induction tasks generalizing counters with
  | nil =>
    simp only [List.flatMap_nil, List.length_nil] at hout
    omega
  | cons task tasks ih =>
    have htask := hrestored task (List.mem_cons_self ..)
    simp only [List.length_cons, List.flatMap_cons, List.length_append] at hframes hout
    rw [encodeFrames_cons, List.append_assoc]
    -- the first output fits: then a later one does not
    by_cases hfirst : counters.outputBytes + task.1.length ≤ limits.val.maxOutputBytes
    · rw [wireLoop_frame plugin limits hname htask (by omega) hfirst, Emit.bind_ok rfl]
      exact ih (fun t ht => hrestored t (List.mem_cons_of_mem _ ht)) _ (by simp only; omega) hfirst
        (by simp only; omega)
    · exact wireLoop_frame_fails plugin limits hname htask (by omega) (Nat.lt_of_not_le hfirst) _

/-! ## The round trip -/

omit hname hrestored

theorem delivered_forwardEvents (tasks : List (Bytes × Bytes)) :
    (tasks.flatMap forwardEvents).flatMap StreamEvent.pushed = encodeFrames tasks := by
  rw [List.flatMap_assoc]
  simp [forwardEvents, StreamEvent.pushed, encodeFrames, encodeFrame]

theorem delivered_backEvents (tasks : List (Bytes × Bytes)) :
    (tasks.flatMap backEvents).flatMap StreamEvent.pushed = tasks.flatMap Prod.fst := by
  rw [List.flatMap_assoc]
  simp [backEvents, StreamEvent.pushed]

/-- Events of which each task leaves one that is read. -/
theorem filterMap_events {α : Type} {events : Bytes × Bytes → List StreamEvent}
    {read : StreamEvent → Option α} {f : Bytes × Bytes → α}
    (h : ∀ task, (events task).filterMap read = [f task]) (tasks : List (Bytes × Bytes)) :
    (tasks.flatMap events).filterMap read = tasks.map f := by
  rw [List.filterMap_flatMap, funext h, List.map_eq_flatMap]

variable {plugin limits}

theorem Compressed.delivered_eq {chunks : List Bytes} {stream : Emit StreamEvent JsError Unit}
    (h : Compressed plugin limits chunks stream.out tasks) :
    delivered stream = magic ++ encodeFrames tasks ++ endMarker := by
  rw [delivered, h.events, List.cons_append, List.flatMap_cons, List.flatMap_append,
    delivered_forwardEvents, ← List.append_assoc]
  rfl

theorem Compressed.taskInputs_eq {chunks : List Bytes} {stream : Emit StreamEvent JsError Unit}
    (h : Compressed plugin limits chunks stream.out tasks) :
    taskInputs stream = tasks.map Prod.fst := by
  rw [taskInputs, h.events, List.cons_append, List.filterMap_cons, List.filterMap_append,
    filterMap_events (f := Prod.fst) fun _ => rfl]
  exact List.append_nil _

theorem Compressed.taskAnswers_eq {chunks : List Bytes} {stream : Emit StreamEvent JsError Unit}
    (h : Compressed plugin limits chunks stream.out tasks) :
    taskAnswers stream = (tasks.map Prod.snd).map Except.ok := by
  rw [taskAnswers, h.events, List.cons_append, List.filterMap_cons, List.filterMap_append,
    filterMap_events (f := fun task => .ok task.2) fun _ => rfl, List.map_map]
  exact List.append_nil _

/-- Behind the last frame the stream may end. -/
theorem decompressFlush_ended (inputBytes : Nat) (counters : Counters) :
    decompressFlush ⟨inputBytes, ⟨counters, true, .length noLength⟩⟩ = pure () := rfl

/-- The wire bytes of a stream, cut anywhere, as one run of the loop. -/
theorem Compressed.complete_decompress {chunks : List Bytes}
    {stream : Emit StreamEvent JsError Unit}
    (h : Compressed plugin limits chunks stream.out tasks) {pieces : List Bytes}
    (hpieces : pieces.flatten = delivered stream) :
    ∃ inputBytes, (plugin.decompressor limits).complete DecompressState.start pieces =
      (plugin.wireLoop limits).run (boundary ⟨0, 0⟩) (encodeFrames tasks ++ endMarker) >>=
        fun wire => decompressFlush ⟨inputBytes, wire⟩ := by
  have hwire := h.delivered_eq
  have hlen : DecompressState.start.inputBytes + pieces.flatten.length ≤
      pluginInputLimit (some limits.val) := by
    rw [hpieces, hwire]
    simpa only [DecompressState.start, Nat.zero_add] using
      le_pluginInputLimit limits h.output_le
  refine ⟨DecompressState.start.inputBytes + pieces.flatten.length, ?_⟩
  have hinput : (plugin.wireLoop limits).run DecompressState.start.wire pieces.flatten =
      (plugin.wireLoop limits).run (boundary ⟨0, 0⟩) (encodeFrames tasks ++ endMarker) := by
    rw [hpieces, hwire, List.append_assoc]
    exact wireLoop_magic plugin limits _
  rw [complete_eq_run plugin limits _ _ hlen, hinput]

variable (plugin limits)

/-- What `compress` has written comes back through `decompress`, in any transport
    chunks, exactly if the input fits under the output limit; every reverse task is
    given the result of one forward task. -/
theorem stream_round_trip {reverseName : String} (hname : plugin.reverseName = some reverseName)
    (chunks : List Bytes) (hcompress : (plugin.createStream limits .compress chunks).Succeeds)
    (hinverse : ∀ slice ∈ taskInputs (plugin.createStream limits .compress chunks), ∀ result,
      plugin.worker plugin.processName slice = .ok result →
        plugin.worker (some reverseName) result = .ok slice)
    (pieces : List Bytes)
    (hpieces : pieces.flatten = delivered (plugin.createStream limits .compress chunks)) :
    ((plugin.createStream limits .decompress pieces).Succeeds ↔
        chunks.flatten.length ≤ limits.val.maxOutputBytes) ∧
      ((plugin.createStream limits .decompress pieces).Succeeds →
        delivered (plugin.createStream limits .decompress pieces) = chunks.flatten ∧
          (taskInputs (plugin.createStream limits .decompress pieces)).map Except.ok =
            taskAnswers (plugin.createStream limits .compress chunks)) := by
  obtain ⟨tasks, h⟩ := compress_ok plugin limits hcompress
  have hanswer : ∀ task ∈ tasks, plugin.worker (some reverseName) task.2 = .ok task.1 := by
    intro task htask
    apply hinverse task.1 ?_ task.2 (h.framed task htask).answer
    rw [h.taskInputs_eq]
    exact List.mem_map_of_mem htask
  have hrestored : ∀ task ∈ tasks, Restored plugin limits reverseName task :=
    fun task htask => (h.framed task htask).restored plugin limits (hanswer task htask)
  have hframes : (0 : Nat) + tasks.length ≤ limits.val.maxFrames := by
    rw [Nat.zero_add]
    exact h.frames_le
  obtain ⟨inputBytes, hback⟩ := h.complete_decompress hpieces
  have hstream : plugin.createStream limits .decompress pieces =
      (plugin.decompressor limits).complete DecompressState.start pieces := by
    simp only [createStream, hname]
  rw [hstream, hback]
  by_cases hfits : chunks.flatten.length ≤ limits.val.maxOutputBytes
  -- the slices are the input, and they fit
  · have hout : (0 : Nat) + (tasks.flatMap Prod.fst).length ≤ limits.val.maxOutputBytes := by
      rw [h.slices, Nat.zero_add]
      exact hfits
    obtain ⟨counters, hrun⟩ := wireLoop_frames plugin limits hname hrestored ⟨0, 0⟩
      hframes hout
    rw [hrun, Emit.bind_ok rfl, decompressFlush_ended]
    refine ⟨⟨fun _ => hfits, fun _ => ⟨(), rfl⟩⟩, fun _ => ⟨?_, ?_⟩⟩
    · rw [delivered, Emit.pure_out, List.append_nil, delivered_backEvents, h.slices]
    · rw [taskInputs, Emit.pure_out, List.append_nil, filterMap_events (f := Prod.snd) fun _ => rfl,
        h.taskAnswers_eq]
  -- one of them is one too many
  · have hfails : ¬ ((plugin.wireLoop limits).run (boundary ⟨0, 0⟩)
        (encodeFrames tasks ++ endMarker)).Succeeds := by
      apply wireLoop_frames_fails plugin limits hname hrestored ⟨0, 0⟩ hframes (Nat.zero_le _)
      rw [h.slices, Nat.zero_add]
      exact Nat.lt_of_not_le hfits
    have hback_fails : ¬ ((plugin.wireLoop limits).run (boundary ⟨0, 0⟩)
        (encodeFrames tasks ++ endMarker) >>= fun wire =>
          decompressFlush ⟨inputBytes, wire⟩).Succeeds := by
      rw [Emit.succeeds_bind]
      rintro ⟨wire, hwire, -⟩
      exact hfails ⟨wire, hwire⟩
    exact ⟨⟨fun hsucc => absurd hsucc hback_fails, fun hle => absurd hle hfits⟩,
      fun hsucc => absurd hsucc hback_fails⟩

/-- A worker that turns its input around, in both directions. -/
def turningPool : WorkerPoolPlugin where
  processName := none
  reverseName := some "turn"
  maxQueue := 64
  worker := fun _ data => .ok data.reverse

/-- Two chunks and an empty one, whose frames arrive in three pieces. -/
theorem stream_round_trip_turning :
    (turningPool.createStream ⟨defaultLimits, defaultLimits_valid⟩ .decompress
        [[0x50, 0x58], [0x57, 0x4b, 1, 0, 0, 0, 2, 2, 1, 0, 0],
          [0, 1, 3, 0xff, 0xff, 0xff, 0xff]]).Succeeds ∧
      delivered (turningPool.createStream ⟨defaultLimits, defaultLimits_valid⟩ .decompress
        [[0x50, 0x58], [0x57, 0x4b, 1, 0, 0, 0, 2, 2, 1, 0, 0],
          [0, 1, 3, 0xff, 0xff, 0xff, 0xff]]) = [1, 2, 3] := by
  obtain ⟨hiff, hout⟩ := stream_round_trip turningPool ⟨defaultLimits, defaultLimits_valid⟩
    rfl [[1, 2], [], [3]] ⟨(), by rfl⟩
    (fun slice _ result h => by
      cases h
      exact congrArg Except.ok (List.reverse_reverse slice))
    [[0x50, 0x58], [0x57, 0x4b, 1, 0, 0, 0, 2, 2, 1, 0, 0], [0, 1, 3, 0xff, 0xff, 0xff, 0xff]]
    (by rfl)
  have hsucc := hiff.mpr (by decide)
  exact ⟨hsucc, (hout hsucc).1⟩

end PipeX.WorkerPoolPlugin
