/-
  PipeX.Plugin.Worker.Compression

  What a `compress` stream that went through has written (`compress_ok`): the
  magic, one frame for every task, the end marker.  `Sliced` says it of the part
  behind the magic, where it composes.
-/
import PipeX.Plugin.Worker.Stream

namespace PipeX.WorkerPoolPlugin

open Chunked BigEndian

variable (plugin : WorkerPoolPlugin) (limits : AcceptedLimits)

/-! ## Pushes -/

theorem emit_of_le (counters : Counters) {bytes : Bytes}
    (h : counters.outputBytes + bytes.length ≤ limits.val.maxOutputBytes) :
    emit limits counters bytes =
      ⟨[.push bytes], .ok { counters with outputBytes := counters.outputBytes + bytes.length }⟩ := by
  have hlim : ¬ (bytes.length : Int) > (limits.val.maxOutputBytes : Int) - counters.outputBytes := by
    omega
  simp only [emit, if_neg hlim]
  rfl

theorem emit_fails (counters : Counters) {bytes : Bytes}
    (h : limits.val.maxOutputBytes < counters.outputBytes + bytes.length) :
    ¬ (emit limits counters bytes).Succeeds := by
  have hlim : (bytes.length : Int) > (limits.val.maxOutputBytes : Int) - counters.outputBytes := by
    omega
  simp only [emit, if_pos hlim, Emit.fail_bind]
  exact Emit.not_succeeds_fail _

theorem emit_ok {counters counters' : Counters} {bytes : Bytes}
    (h : (emit limits counters bytes).result = .ok counters') :
    counters.outputBytes + bytes.length ≤ limits.val.maxOutputBytes ∧
      counters' = { counters with outputBytes := counters.outputBytes + bytes.length } ∧
      (emit limits counters bytes).out = [.push bytes] := by
  by_cases hle : counters.outputBytes + bytes.length ≤ limits.val.maxOutputBytes
  · rw [emit_of_le limits _ hle] at h ⊢
    cases h
    exact ⟨hle, rfl, rfl⟩
  · exact absurd ⟨_, h⟩ (emit_fails limits _ (Nat.lt_of_not_le hle))

/-! ## Tasks -/

theorem runTask_ok {data output : Bytes} {exportName : Option String}
    (h : (plugin.runTask limits data exportName).result = .ok output) :
    plugin.worker exportName data = .ok output ∧
      output.length ≤ limits.val.maxOutputBytes ∧
      (plugin.runTask limits data exportName).out = [.task data (.ok output)] := by
  by_cases hin : data.length > pluginInputLimit (some limits.val)
  · simp only [runTask, if_pos hin, Emit.fail_bind] at h
    cases h
  simp only [runTask, if_neg hin] at h ⊢
  cases hanswer : plugin.worker exportName data with
  | error e =>
    rw [hanswer] at h
    cases h
  | ok result =>
    rw [hanswer] at h
    by_cases hout : result.length > pluginOutputLimit (some limits.val)
    · simp only [if_pos hout] at h
      cases h
    · simp only [if_neg hout] at h ⊢
      cases h
      exact ⟨rfl, Nat.le_of_not_lt hout, rfl⟩

theorem runTask_of_ok {data output : Bytes} {exportName : Option String}
    (hin : data.length ≤ pluginInputLimit (some limits.val))
    (hanswer : plugin.worker exportName data = .ok output)
    (hout : output.length ≤ limits.val.maxOutputBytes) :
    plugin.runTask limits data exportName = ⟨[.task data (.ok output)], .ok output⟩ := by
  have hout' : ¬ output.length > pluginOutputLimit (some limits.val) := Nat.not_lt_of_le hout
  simp only [runTask, if_neg (Nat.not_lt_of_le hin), hanswer, if_neg hout']
  rfl

/-- The limits leave a forward task's result small enough to go back. -/
theorem le_pluginInputLimit {n : Nat} (h : n ≤ limits.val.maxOutputBytes) :
    n ≤ pluginInputLimit (some limits.val) :=
  Nat.le_trans h (pluginOutputLimit_le_pluginInputLimit (some limits.val))

/-- A slice, and a result of its task that the stream frames. -/
structure Framed (task : Bytes × Bytes) : Prop where
  answer : plugin.worker plugin.processName task.1 = .ok task.2
  slice_le : task.1.length ≤ maxFrame limits
  result_le_frame : task.2.length ≤ maxFrame limits
  result_le_output : task.2.length ≤ limits.val.maxOutputBytes

theorem run_compress_ok {counters counters' : Counters} {slice result : Bytes}
    (hslice : slice.length ≤ maxFrame limits)
    (h : (plugin.run limits .compress counters slice).result = .ok (counters', result)) :
    counters.frames + 1 ≤ limits.val.maxFrames ∧
      counters' = { counters with frames := counters.frames + 1 } ∧
      Framed plugin limits (slice, result) ∧
      (plugin.run limits .compress counters slice).out = [.task slice (.ok result)] := by
  by_cases hframes : counters.frames + 1 > limits.val.maxFrames
  · simp only [run, if_pos hframes, Emit.fail_bind] at h
    cases h
  simp only [run, if_neg hframes] at h ⊢
  obtain ⟨output, htask, h, hout⟩ := Emit.bind_eq_ok h
  obtain ⟨hanswer, hlen, htaskOut⟩ := runTask_ok plugin limits htask
  by_cases hframe : output.length > maxFrame limits
  · simp only [if_pos hframe, Emit.fail_bind] at h
    cases h
  simp only [if_neg hframe] at h
  cases h
  refine ⟨Nat.le_of_not_lt hframes, rfl,
    ⟨hanswer, hslice, Nat.le_of_not_lt hframe, hlen⟩, ?_⟩
  rw [hout, if_neg hframe]
  simpa [process] using htaskOut

/-- A payload that the stream takes, and what its reverse task makes of it. -/
structure Restored (reverseName : String) (task : Bytes × Bytes) : Prop where
  answer : plugin.worker (some reverseName) task.2 = .ok task.1
  payload_le_input : task.2.length ≤ pluginInputLimit (some limits.val)
  payload_le_frame : task.2.length ≤ maxFrame limits
  output_le_frame : task.1.length ≤ maxFrame limits

/-- What a stream has framed goes back, if the reverse export undoes the task. -/
theorem Framed.restored {reverseName : String} {task : Bytes × Bytes}
    (h : Framed plugin limits task)
    (hanswer : plugin.worker (some reverseName) task.2 = .ok task.1) :
    Restored plugin limits reverseName task :=
  ⟨hanswer, le_pluginInputLimit limits h.result_le_output, h.result_le_frame, h.slice_le⟩

/-- A reverse task whose output fits under the limits. -/
theorem run_decompress_of_le {counters : Counters} {output payload : Bytes} {reverseName : String}
    (hname : plugin.reverseName = some reverseName)
    (hframes : counters.frames + 1 ≤ limits.val.maxFrames)
    (h : Restored plugin limits reverseName (output, payload))
    (hout : output.length ≤ limits.val.maxOutputBytes) :
    plugin.run limits .decompress counters payload =
      ⟨[.task payload (.ok output)],
        .ok ({ counters with frames := counters.frames + 1 }, output)⟩ := by
  have htask : plugin.reverse limits payload = ⟨[.task payload (.ok output)], .ok output⟩ := by
    simp only [reverse, hname]
    exact runTask_of_ok plugin limits h.payload_le_input h.answer hout
  simp only [run, if_neg (Nat.not_lt_of_le hframes), htask]
  rw [Emit.bind_ok rfl, if_neg (Nat.not_lt_of_le h.output_le_frame)]
  rfl

/-- One whose output does not. -/
theorem run_decompress_fails {counters : Counters} {slice result : Bytes} {reverseName : String}
    (hname : plugin.reverseName = some reverseName)
    (hanswer : plugin.worker (some reverseName) result = .ok slice)
    (hout : limits.val.maxOutputBytes < slice.length) :
    ¬ (plugin.run limits .decompress counters result).Succeeds := by
  rintro ⟨ran, h⟩
  by_cases hframes : counters.frames + 1 > limits.val.maxFrames
  · simp only [run, if_pos hframes, Emit.fail_bind] at h
    cases h
  simp only [run, if_neg hframes, reverse, hname] at h
  obtain ⟨output, htask, -, -⟩ := Emit.bind_eq_ok h
  obtain ⟨hanswer', hle, -⟩ := runTask_ok plugin limits htask
  rw [hanswer] at hanswer'
  cases hanswer'
  omega

/-! ## What `compress` writes -/

/-- A length and so many bytes. -/
def encodeFrame (result : Bytes) : Bytes := beBytes lengthBytes result.length ++ result

/-- The frames of a list of tasks. -/
def encodeFrames (tasks : List (Bytes × Bytes)) : Bytes := tasks.flatMap fun t => encodeFrame t.2

/-- What a forward task leaves behind. -/
def forwardEvents (task : Bytes × Bytes) : List StreamEvent :=
  [.task task.1 (.ok task.2), .push (beBytes lengthBytes task.2.length), .push task.2]

/-- What its reverse task leaves behind. -/
def backEvents (task : Bytes × Bytes) : List StreamEvent :=
  [.task task.2 (.ok task.1), .push task.1]

@[simp] theorem encodeFrames_nil : encodeFrames [] = [] := rfl

@[simp] theorem encodeFrames_cons (task : Bytes × Bytes) (tasks : List (Bytes × Bytes)) :
    encodeFrames (task :: tasks) = encodeFrame task.2 ++ encodeFrames tasks := rfl

@[simp] theorem encodeFrames_append (ts us : List (Bytes × Bytes)) :
    encodeFrames (ts ++ us) = encodeFrames ts ++ encodeFrames us :=
  List.flatMap_append

@[simp] theorem length_encodeFrame (result : Bytes) :
    (encodeFrame result).length = lengthBytes + result.length := by
  simp [encodeFrame]

/-- The slices of an input went through as the given tasks. -/
structure Sliced (counters counters' : Counters) (input : Bytes) (out : List StreamEvent)
    (tasks : List (Bytes × Bytes)) : Prop where
  slices : tasks.flatMap Prod.fst = input
  framed : ∀ task ∈ tasks, Framed plugin limits task
  events : out = tasks.flatMap forwardEvents
  frames : counters'.frames = counters.frames + tasks.length
  outputBytes : counters'.outputBytes = counters.outputBytes + (encodeFrames tasks).length
  frames_le : counters.frames ≤ limits.val.maxFrames → counters'.frames ≤ limits.val.maxFrames

variable {plugin limits}

theorem Sliced.nil (counters : Counters) : Sliced plugin limits counters counters [] [] [] :=
  ⟨rfl, by simp, rfl, rfl, rfl, id⟩

theorem Sliced.append {c c₁ c₂ : Counters} {a b : Bytes} {out out' : List StreamEvent}
    {ts us : List (Bytes × Bytes)} (h : Sliced plugin limits c c₁ a out ts)
    (h' : Sliced plugin limits c₁ c₂ b out' us) :
    Sliced plugin limits c c₂ (a ++ b) (out ++ out') (ts ++ us) where
  slices := by rw [List.flatMap_append, h.slices, h'.slices]
  framed := by
    intro task htask
    rcases List.mem_append.mp htask with ht | hu
    · exact h.framed task ht
    · exact h'.framed task hu
  events := by rw [List.flatMap_append, h.events, h'.events]
  frames := by rw [h'.frames, h.frames, List.length_append, Nat.add_assoc]
  outputBytes := by
    rw [h'.outputBytes, h.outputBytes, encodeFrames_append, List.length_append, Nat.add_assoc]
  frames_le := fun hle => h'.frames_le (h.frames_le hle)

variable (plugin limits)

@[simp] theorem sliceLoop_body : (plugin.sliceLoop limits).body = plugin.slicePass limits := rfl

/-- A pass that went through is one task. -/
theorem slicePass_ok {c : Counters} {input : Bytes} {p : Progress Counters UInt8}
    (h : (plugin.slicePass limits c input).result = .ok p) :
    ∃ c' task, p = .done c' (input.drop (maxFrame limits)) ∧
      Sliced plugin limits c c' (input.take (maxFrame limits))
        (plugin.slicePass limits c input).out [task] := by
  simp only [slicePass] at h ⊢
  -- the task, the length of its result and the result itself
  obtain ⟨⟨c₁, output⟩, hrun, h₁, hout₁⟩ := Emit.bind_eq_ok h
  obtain ⟨c₂, hlength, h₂, hout₂⟩ := Emit.bind_eq_ok h₁
  obtain ⟨c₃, hpayload, h₃, hout₃⟩ := Emit.bind_eq_ok h₂
  cases h₃
  have hslice : (input.take (maxFrame limits)).length ≤ maxFrame limits := List.length_take_le _ _
  obtain ⟨hframes, rfl, hframed, hrunOut⟩ := run_compress_ok plugin limits hslice hrun
  obtain ⟨-, rfl, hlengthOut⟩ := emit_ok limits hlength
  obtain ⟨-, rfl, hpayloadOut⟩ := emit_ok limits hpayload
  refine ⟨_, (input.take (maxFrame limits), output), rfl, ?_⟩
  refine ⟨by simp, by simpa using hframed, ?_, rfl, ?_, fun _ => hframes⟩
  · rw [hout₁, hrunOut, hout₂, hlengthOut, hout₃, hpayloadOut]
    rfl
  · simp [Nat.add_assoc]

theorem sliceLoop_ok {c c' : Counters} {input : Bytes}
    (h : ((plugin.sliceLoop limits).run c input).result = .ok c') :
    ∃ tasks, Sliced plugin limits c c' input ((plugin.sliceLoop limits).run c input).out tasks := by
  induction c, input using (plugin.sliceLoop limits).induct with
  | nil c =>
    cases h
    exact ⟨[], Sliced.nil _⟩
  | pass c input hne ih =>
    rw [InputLoop.run_of_ne_nil _ _ hne] at h ⊢
    obtain ⟨p, hpass, hnext, hout⟩ := Emit.bind_eq_ok h
    obtain ⟨c₁, task, rfl, hfirst⟩ := slicePass_ok plugin limits hpass
    obtain ⟨tasks, hrest⟩ := ih c₁ _ hpass hnext
    refine ⟨task :: tasks, ?_⟩
    have hall := hfirst.append hrest
    -- the slice and what is behind it are the input of the pass
    rw [List.take_append_drop] at hall
    rw [hout]
    exact hall

/-- Behind the magic, the calls of a stream come to one list of tasks. -/
theorem feed_compress_ok {s s' : CompressState} {chunks : List Bytes} (hs : s.started = true)
    (h : ((plugin.compressor limits).feed s chunks).result = .ok s') :
    s'.started = true ∧ ∃ tasks, Sliced plugin limits s.counters s'.counters chunks.flatten
      ((plugin.compressor limits).feed s chunks).out tasks := by
  induction chunks generalizing s with
  | nil =>
    cases h
    exact ⟨hs, [], Sliced.nil _⟩
  | cons chunk chunks ih =>
    rw [Transform.feed_cons] at h ⊢
    obtain ⟨s₁, hchunk, hfeed, hout⟩ := Emit.bind_eq_ok h
    have hfirst : s₁.started = true ∧ ∃ tasks, Sliced plugin limits s.counters s₁.counters chunk
        ((plugin.compressor limits).transform s chunk).out tasks := by
      simp only [compressor, compressChunk, hs, if_true] at hchunk ⊢
      -- the input limit, and then the loop; `started` leaves no magic to push
      obtain ⟨_, -, hchunk, hout₁⟩ := Emit.bind_eq_ok hchunk
      rw [pure_bind] at hchunk
      obtain ⟨c₁, hloop, hchunk, hout₂⟩ := Emit.bind_eq_ok hchunk
      cases hchunk
      obtain ⟨tasks, htasks⟩ := sliceLoop_ok plugin limits hloop
      refine ⟨rfl, tasks, ?_⟩
      rw [hout₁, pure_bind, hout₂]
      simpa using htasks
    obtain ⟨hs₁, ts, hts⟩ := hfirst
    obtain ⟨hs', us, hus⟩ := ih hs₁ hfeed
    refine ⟨hs', ts ++ us, ?_⟩
    rw [hout]
    exact hts.append hus

/-- The first call of a stream, whichever it is, pushes the magic. -/
theorem complete_compress_start {s : CompressState} {chunks : List Bytes} (hs : s.started = false)
    (h : ((plugin.compressor limits).complete s chunks).result = .ok ()) :
    ∃ c, (emit limits s.counters magic).result = .ok c ∧
      ((plugin.compressor limits).complete ⟨s.inputBytes, true, c⟩ chunks).result = .ok () ∧
      ((plugin.compressor limits).complete s chunks).out =
        (emit limits s.counters magic).out ++
          ((plugin.compressor limits).complete ⟨s.inputBytes, true, c⟩ chunks).out := by
  cases chunks with
  -- no chunk: the flush is the first call
  | nil =>
    simp only [Transform.complete, Transform.feed_nil, pure_bind, compressor, compressFlush, hs,
      Bool.false_eq_true, if_false, if_true] at h ⊢
    obtain ⟨c, hmagic, hend, hout⟩ := Emit.bind_eq_ok h
    exact ⟨c, hmagic, hend, hout⟩
  | cons chunk chunks =>
    simp only [Transform.complete, Transform.feed_cons, compressor, compressChunk, hs,
      Bool.false_eq_true, if_false, if_true, bind_assoc, pure_bind] at h ⊢
    obtain ⟨_, hcheck, h, hout⟩ := Emit.bind_eq_ok h
    obtain ⟨c, hmagic, h, hout'⟩ := Emit.bind_eq_ok h
    have hinput : checkInput limits s.inputBytes chunk = .ok () := hcheck
    simp only [hinput, Emit.liftM_eq, Emit.ofExcept_ok, pure_bind] at hout ⊢
    exact ⟨c, hmagic, h, hout'⟩

/-- What a `compress` stream that went through has written. -/
structure Compressed (chunks : List Bytes) (out : List StreamEvent)
    (tasks : List (Bytes × Bytes)) : Prop where
  slices : tasks.flatMap Prod.fst = chunks.flatten
  framed : ∀ task ∈ tasks, Framed plugin limits task
  frames_le : tasks.length ≤ limits.val.maxFrames
  output_le : (magic ++ encodeFrames tasks ++ endMarker).length ≤ limits.val.maxOutputBytes
  events : out = .push magic :: tasks.flatMap forwardEvents ++ [.push endMarker]

theorem compress_ok {chunks : List Bytes}
    (h : (plugin.createStream limits .compress chunks).Succeeds) :
    ∃ tasks, Compressed plugin limits chunks (plugin.createStream limits .compress chunks).out
      tasks := by
  obtain ⟨_, h⟩ := h
  -- magic, frames, end marker
  obtain ⟨c, hmagic, hrest, hout⟩ := complete_compress_start plugin limits rfl h
  obtain ⟨-, rfl, hmagicOut⟩ := emit_ok limits hmagic
  obtain ⟨s, hfeed, hflush, hout'⟩ := Emit.bind_eq_ok hrest
  obtain ⟨hs, tasks, htasks⟩ := feed_compress_ok plugin limits rfl hfeed
  simp only [compressor, compressFlush, hs, if_true, pure_bind] at hflush hout'
  obtain ⟨c', hend, -, houtEnd⟩ := Emit.bind_eq_ok hflush
  obtain ⟨hle, -, hendOut⟩ := emit_ok limits hend
  refine ⟨tasks, htasks.slices, htasks.framed, ?_, ?_, ?_⟩
  · have := htasks.frames_le (Nat.zero_le _)
    rw [htasks.frames] at this
    simpa [CompressState.start] using this
  · rw [htasks.outputBytes] at hle
    simpa [CompressState.start, Nat.add_assoc] using hle
  · have hevents := htasks.events
    simp only [compressor] at hevents
    change ((plugin.compressor limits).complete CompressState.start chunks).out = _
    rw [hout, hmagicOut]
    simp only [Transform.complete, compressor, hout', hevents, houtEnd, hendOut]
    rfl

end PipeX.WorkerPoolPlugin
