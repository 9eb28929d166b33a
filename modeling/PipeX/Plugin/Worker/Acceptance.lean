/-
  PipeX.Plugin.Worker.Acceptance

  What a `decompress` stream accepts is the PXWK grammar: the magic, a record for
  every payload, the end marker, and nothing behind it.

  * `wireFormat_prefix_free`, `records_cancel` — no stream of the format begins
    another one, and none contains a length beyond the limit.
  * `wireLoop_accepts` — a run of the loop that may end has read records and the
    end marker; with `wireLoop_frames` this is all it accepts.
-/
import PipeX.Plugin.Worker.RoundTrip

namespace PipeX.WorkerPoolPlugin

open Chunked BigEndian

variable (plugin : WorkerPoolPlugin) (limits : AcceptedLimits)

/-! ## The grammar -/

/-- The records of a list of payloads. -/
def records (payloads : List Bytes) : Bytes := payloads.flatMap encodeFrame

/-- A stream of the format. -/
def wireFormat (payloads : List Bytes) : Bytes := magic ++ records payloads ++ endMarker

/-- `wire` is the stream of these payloads, under the limits on frames. -/
structure Encodes (wire : Bytes) (payloads : List Bytes) : Prop where
  format : wire = wireFormat payloads
  count_le : payloads.length ≤ limits.val.maxFrames
  length_le : ∀ payload ∈ payloads, payload.length ≤ maxFrame limits

@[simp] theorem records_nil : records [] = [] := rfl

@[simp] theorem records_cons (payload : Bytes) (payloads : List Bytes) :
    records (payload :: payloads) = encodeFrame payload ++ records payloads := rfl

theorem endMarker_eq : endMarker = beBytes lengthBytes 0xffffffff := by decide

/-- Where two streams go on with records of lengths that the limit allows and then a
    length that it does not, they agree up to there. -/
theorem records_cancel {as bs : List Bytes} {m n : Nat} {x y : Bytes}
    (ha : ∀ a ∈ as, a.length ≤ maxFrame limits) (hb : ∀ b ∈ bs, b.length ≤ maxFrame limits)
    (hm : maxFrame limits < m) (hm' : m < 256 ^ lengthBytes)
    (hn : maxFrame limits < n) (hn' : n < 256 ^ lengthBytes)
    (h : records as ++ (beBytes lengthBytes m ++ x) = records bs ++ (beBytes lengthBytes n ++ y)) :
    as = bs ∧ m = n ∧ x = y := by
  have hlen (i j : Nat) : (beBytes lengthBytes i).length = (beBytes lengthBytes j).length := by
    rw [beBytes_length, beBytes_length]
  -- a length that the limit allows is below both of the others
  have hlt {i : Nat} (hi : i ≤ maxFrame limits) : i < 256 ^ lengthBytes := by omega
  induction as generalizing bs with
  | nil =>
    cases bs with
    | nil =>
      rw [records_nil, List.nil_append, List.nil_append] at h
      obtain ⟨hlengths, hxy⟩ := List.append_inj h (hlen m n)
      exact ⟨rfl, beBytes_inj hm' hn' hlengths, hxy⟩
    | cons b bs =>
      have hble := hb b (List.mem_cons_self ..)
      rw [records_nil, List.nil_append, records_cons, encodeFrame, List.append_assoc,
        List.append_assoc] at h
      have hmb := beBytes_inj hm' (hlt hble) (List.append_inj h (hlen _ _)).1
      omega
  | cons a as ih =>
    have hale := ha a (List.mem_cons_self ..)
    rw [records_cons, encodeFrame, List.append_assoc, List.append_assoc] at h
    cases bs with
    | nil =>
      rw [records_nil, List.nil_append] at h
      have han := beBytes_inj (hlt hale) hn' (List.append_inj h (hlen _ _)).1
      omega
    | cons b bs =>
      have hble := hb b (List.mem_cons_self ..)
      rw [records_cons, encodeFrame, List.append_assoc, List.append_assoc] at h
      obtain ⟨hlengths, hrest⟩ := List.append_inj h (hlen _ _)
      obtain ⟨hab, htail⟩ :=
        List.append_inj hrest (beBytes_inj (hlt hale) (hlt hble) hlengths)
      obtain ⟨hrecords, hmn, hxy⟩ :=
        ih (fun t ht => ha t (List.mem_cons_of_mem _ ht)) (fun t ht => hb t (List.mem_cons_of_mem _ ht))
          htail
      exact ⟨by rw [hab, hrecords], hmn, hxy⟩

theorem maxFrame_lt_end : maxFrame limits < 0xffffffff :=
  Nat.lt_of_le_of_lt (Nat.min_le_right _ _) (by decide)

/-- A stream of the format is not the beginning of a longer one. -/
theorem wireFormat_prefix_free {as bs : List Bytes} {rest : Bytes}
    (ha : ∀ a ∈ as, a.length ≤ maxFrame limits) (hb : ∀ b ∈ bs, b.length ≤ maxFrame limits)
    (h : wireFormat as ++ rest = wireFormat bs) : as = bs ∧ rest = [] := by
  have hend := maxFrame_lt_end limits
  have hcut : records as ++ (endMarker ++ rest) = records bs ++ (endMarker ++ []) := by
    rw [wireFormat, wireFormat, List.append_assoc, List.append_assoc, List.append_assoc] at h
    simpa using List.append_cancel_left h
  rw [endMarker_eq] at hcut
  obtain ⟨hrecords, -, hrest⟩ :=
    records_cancel limits ha hb hend (by decide) hend (by decide) hcut
  exact ⟨hrecords, hrest⟩

/-! ## Reverse tasks -/

/-- The reverse task of a payload succeeds within the limits. -/
def Answered (reverseName : String) (payload : Bytes) : Prop :=
  ∃ output, plugin.worker (some reverseName) payload = .ok output ∧
    output.length ≤ maxFrame limits ∧ output.length ≤ limits.val.maxOutputBytes

/-- What the reverse export makes of a payload. -/
def reversed (reverseName : String) (payload : Bytes) : Bytes :=
  match plugin.worker (some reverseName) payload with
  | .ok output => output
  | .error _ => []

/-- The tasks of a stream. -/
def reverseTasks (reverseName : String) (payloads : List Bytes) : List (Bytes × Bytes) :=
  payloads.map fun payload => (plugin.reversed reverseName payload, payload)

theorem encodeFrames_reverseTasks (reverseName : String) (payloads : List Bytes) :
    encodeFrames (plugin.reverseTasks reverseName payloads) = records payloads :=
  List.flatMap_map _ _ _

theorem flatMap_reverseTasks (reverseName : String) (payloads : List Bytes) :
    (plugin.reverseTasks reverseName payloads).flatMap Prod.fst =
      payloads.flatMap (plugin.reversed reverseName) :=
  List.flatMap_map _ _ _

theorem snd_reverseTasks (reverseName : String) (payloads : List Bytes) :
    (plugin.reverseTasks reverseName payloads).map Prod.snd = payloads := by
  simp [reverseTasks, Function.comp_def]

variable {plugin} in
theorem reversed_of_ok {reverseName : String} {payload output : Bytes}
    (h : plugin.worker (some reverseName) payload = .ok output) :
    plugin.reversed reverseName payload = output := by
  simp only [reversed, h]

/-- A payload that fits and is answered is a task that the stream can take. -/
theorem Answered.restored {reverseName : String} {payload : Bytes}
    (h : Answered plugin limits reverseName payload)
    (hinput : payload.length ≤ pluginInputLimit (some limits.val))
    (hframe : payload.length ≤ maxFrame limits) :
    Restored plugin limits reverseName (plugin.reversed reverseName payload, payload) := by
  obtain ⟨output, hworker, hle, -⟩ := h
  rw [reversed_of_ok hworker]
  exact ⟨hworker, hinput, hframe, hle⟩

theorem run_decompress_ok {counters counters' : Counters} {payload output : Bytes}
    {reverseName : String} (hname : plugin.reverseName = some reverseName)
    (h : (plugin.run limits .decompress counters payload).result = .ok (counters', output)) :
    counters.frames + 1 ≤ limits.val.maxFrames ∧
      counters' = { counters with frames := counters.frames + 1 } ∧
      plugin.worker (some reverseName) payload = .ok output ∧
      Answered plugin limits reverseName payload := by
  by_cases hframes : counters.frames + 1 > limits.val.maxFrames
  · simp only [run, if_pos hframes, Emit.fail_bind] at h
    cases h
  -- the frame is counted, then the worker answers
  simp only [run, if_neg hframes, reverse, hname] at h
  obtain ⟨result, htask, h, -⟩ := Emit.bind_eq_ok h
  obtain ⟨hanswer, hlen, -⟩ := runTask_ok plugin limits htask
  by_cases hframe : result.length > maxFrame limits
  · simp only [if_pos hframe, Emit.fail_bind] at h
    cases h
  simp only [if_neg hframe] at h
  cases h
  exact ⟨Nat.le_of_not_lt hframes, rfl, hanswer, output, hanswer, Nat.le_of_not_lt hframe, hlen⟩

/-! ## What the loop accepts -/

/-- The input of a run that may end: records, the end marker and nothing else. -/
structure Accepted (reverseName : String) (counters : Counters) (input : Bytes)
    (payloads : List Bytes) : Prop where
  format : input = records payloads ++ endMarker
  frames_le : counters.frames + payloads.length ≤ limits.val.maxFrames
  length_le : ∀ payload ∈ payloads, payload.length ≤ maxFrame limits
  answered : ∀ payload ∈ payloads, Answered plugin limits reverseName payload
  output_le : counters.outputBytes + (payloads.flatMap (plugin.reversed reverseName)).length ≤
    limits.val.maxOutputBytes

variable {plugin limits} in
theorem Accepted.cons {reverseName : String} {counters : Counters} {payload output input : Bytes}
    {payloads : List Bytes} (hframe : payload.length ≤ maxFrame limits)
    (hanswer : Answered plugin limits reverseName payload)
    (hworker : plugin.worker (some reverseName) payload = .ok output)
    (h : Accepted plugin limits reverseName
      ⟨counters.outputBytes + output.length, counters.frames + 1⟩ input payloads) :
    Accepted plugin limits reverseName counters (encodeFrame payload ++ input)
      (payload :: payloads) where
  format := by rw [h.format, records_cons, List.append_assoc]
  frames_le := by
    have hframes := h.frames_le
    simp only [List.length_cons] at hframes ⊢
    omega
  length_le := List.forall_mem_cons.mpr ⟨hframe, h.length_le⟩
  answered := List.forall_mem_cons.mpr ⟨hanswer, h.answered⟩
  output_le := by
    have hout := h.output_le
    rw [List.flatMap_cons, List.length_append, reversed_of_ok hworker]
    simp only at hout
    omega

theorem decompressFlush_ok {s : DecompressState} (h : (decompressFlush s).Succeeds) :
    s.wire.ended = true := by
  by_contra hended
  have hfails : decompressFlush s = Emit.fail (plainError "[PipeX] Incomplete worker stream") :=
    if_pos (.inl (by simpa using hended))
  rw [hfails] at h
  exact Emit.not_succeeds_fail _ h

theorem fillPayload_full {length : Nat} {input payload rest : Bytes}
    (h : fillPayload length input = .full payload rest) :
    payload.length = length ∧ input = payload ++ rest := by
  simp only [fillPayload] at h
  split at h
  · rename_i hpos
    rcases Partial.fill_cases (Partial.empty hpos) input with ⟨_, hmore⟩ | ⟨items, rest', hfull, hlen, happ⟩
    · rw [hmore] at h
      cases h
    · rw [hfull] at h
      cases h
      exact ⟨hlen, happ⟩
  · cases h
    exact ⟨by rw [List.length_nil]; omega, rfl⟩

/-- Behind the end marker nothing is read. -/
theorem wireLoop_trailing {counters : Counters} {stage : Stage} {input : Bytes}
    (h : ((plugin.wireLoop limits).run ⟨counters, true, stage⟩ input).Succeeds) : input = [] := by
  by_contra hne
  rw [InputLoop.run_of_ne_nil _ _ hne, wireLoop_body] at h
  simp only [wirePass, if_true, Emit.fail_bind] at h
  exact Emit.not_succeeds_fail _ h

/-- A payload that is complete and went through. -/
theorem payloadPass_ok {reverseName : String} (hname : plugin.reverseName = some reverseName)
    {counters : Counters} {stage : Stage} {length : Nat} {payload rest : Bytes}
    {p : Progress WireState UInt8}
    (h : (payloadPass plugin limits ⟨counters, false, stage⟩
      (.full payload rest : Fill UInt8 length)).result = .ok p) :
    ∃ output, plugin.worker (some reverseName) payload = .ok output ∧
      Answered plugin limits reverseName payload ∧
      counters.frames + 1 ≤ limits.val.maxFrames ∧
      counters.outputBytes + output.length ≤ limits.val.maxOutputBytes ∧
      p = .done (boundary ⟨counters.outputBytes + output.length, counters.frames + 1⟩) rest := by
  simp only [payloadPass] at h
  obtain ⟨⟨c₁, output⟩, hrun, h, -⟩ := Emit.bind_eq_ok h
  obtain ⟨c₂, hemit, h, -⟩ := Emit.bind_eq_ok h
  cases h
  obtain ⟨hframes, rfl, hworker, hanswer⟩ := run_decompress_ok plugin limits hname hrun
  obtain ⟨hout, rfl, -⟩ := emit_ok limits hemit
  exact ⟨output, hworker, hanswer, hframes, hout, rfl⟩

/-- A run between two frames that may end has read records and the end marker. -/
theorem wireLoop_accepts {reverseName : String} (hname : plugin.reverseName = some reverseName)
    {counters : Counters} {input : Bytes} {wire : WireState}
    (h : ((plugin.wireLoop limits).run (boundary counters) input).result = .ok wire)
    (hended : wire.ended = true) (hle : counters.frames ≤ limits.val.maxFrames)
    (hout : counters.outputBytes ≤ limits.val.maxOutputBytes) :
    ∃ payloads, Accepted plugin limits reverseName counters input payloads := by
  generalize hs : boundary counters = s at h
  induction s, input using (plugin.wireLoop limits).induct generalizing counters with
  | nil s =>
    subst hs
    cases h
    cases hended
  | pass s input hne ih =>
    subst hs
    rw [InputLoop.run_of_ne_nil _ _ hne] at h
    obtain ⟨p, hpass, hnext, -⟩ := Emit.bind_eq_ok h
    have hpass' := hpass
    simp only [wireLoop_body, wirePass, boundary, Bool.false_eq_true, if_false] at hpass'
    rcases Partial.fill_cases noLength input with ⟨_, hmore⟩ | ⟨header, rest, hfull, hlen, happ⟩
    -- the stream ends in a length
    · rw [hmore] at hpass'
      cases hpass'
      cases hnext
      cases hended
    simp only [hfull] at hpass'
    have happ : input = header ++ rest := happ
    have hheader : beBytes lengthBytes (beNat header) = header := by
      rw [← hlen]
      exact beBytes_beNat header
    split at hpass'
    -- the end marker
    · rename_i hend
      cases hpass'
      have hrest : rest = [] := wireLoop_trailing plugin limits ⟨wire, hnext⟩
      refine ⟨[], ?_, by simpa using hle, by simp, by simp, by simpa using hout⟩
      rw [happ, hrest, ← hheader, hend, ← endMarker_eq]
      rfl
    split at hpass'
    · cases hpass'
    rename_i hmax
    cases hfill : fillPayload (beNat header) rest with
    -- the stream ends in a payload
    | more partly =>
      rw [hfill] at hpass'
      cases hpass'
      cases hnext
      cases hended
    | full payload rest' =>
      obtain ⟨hlength, hpayload⟩ := fillPayload_full hfill
      rw [hfill] at hpass'
      obtain ⟨output, hworker, hanswer, hframes, htotal, rfl⟩ :=
        payloadPass_ok plugin limits hname hpass'
      obtain ⟨payloads, haccepted⟩ := ih _ _ hpass hframes htotal rfl hnext
      refine ⟨payload :: payloads, ?_⟩
      rw [happ, hpayload, ← hheader, ← hlength, ← List.append_assoc]
      exact haccepted.cons (by omega) hanswer hworker

/-- One from the start that may end has read the magic first. -/
theorem wireLoop_accepts_start {reverseName : String}
    (hname : plugin.reverseName = some reverseName) {input : Bytes} {wire : WireState}
    (h : ((plugin.wireLoop limits).run WireState.start input).result = .ok wire)
    (hended : wire.ended = true) :
    ∃ payloads, input = wireFormat payloads ∧
      Accepted plugin limits reverseName ⟨0, 0⟩ (records payloads ++ endMarker) payloads := by
  by_cases hne : input = []
  · subst hne
    cases h
    cases hended
  have h' := h
  rw [InputLoop.run_of_ne_nil _ _ hne] at h'
  obtain ⟨p, hpass, hnext, -⟩ := Emit.bind_eq_ok h'
  simp only [wireLoop_body, wirePass, WireState.start, Bool.false_eq_true, if_false] at hpass
  rcases Partial.fill_cases (Partial.empty (by decide : 0 < magic.length)) input with
    ⟨_, hmore⟩ | ⟨header, rest, hfull, -, happ⟩
  -- the stream ends in the magic
  · rw [hmore] at hpass
    cases hpass
    cases hnext
    cases hended
  simp only [hfull] at hpass
  split at hpass
  · cases hpass
  rename_i hmagic
  have hheader : header = magic := Classical.not_not.mp hmagic
  have happ : input = magic ++ rest := by
    rw [← hheader]
    exact happ
  rw [happ, wireLoop_magic] at h
  obtain ⟨payloads, haccepted⟩ :=
    wireLoop_accepts plugin limits hname h hended (Nat.zero_le _) (Nat.zero_le _)
  refine ⟨payloads, ?_, ?_⟩
  · rw [happ, haccepted.format, wireFormat, List.append_assoc]
  · rw [← haccepted.format]
    exact haccepted

/-! ## What the stream accepts -/

theorem createStream_decompress {reverseName : String}
    (hname : plugin.reverseName = some reverseName) (pieces : List Bytes) :
    plugin.createStream limits .decompress pieces =
      (plugin.decompressor limits).complete DecompressState.start pieces := by
  simp only [createStream, hname]

/-- A stream that went through was given no more than the input limit. -/
theorem input_le_of_succeeds {s : DecompressState} {pieces : List Bytes}
    (hs : s.inputBytes ≤ pluginInputLimit (some limits.val))
    (h : ((plugin.decompressor limits).complete s pieces).Succeeds) :
    s.inputBytes + pieces.flatten.length ≤ pluginInputLimit (some limits.val) := by
  induction pieces generalizing s with
  | nil => simpa using hs
  | cons piece pieces ih =>
    rw [Transform.complete_cons, Emit.succeeds_bind] at h
    obtain ⟨s', hchunk, hrest⟩ := h
    simp only [decompressor, decompressChunk] at hchunk
    obtain ⟨_, hcheck, hchunk, -⟩ := Emit.bind_eq_ok hchunk
    obtain ⟨wire, -, hchunk, -⟩ := Emit.bind_eq_ok hchunk
    cases hchunk
    -- the check has let the piece through
    have hpiece : s.inputBytes + piece.length ≤ pluginInputLimit (some limits.val) := by
      by_contra hover
      have hfails : checkInput limits s.inputBytes piece =
          .error (plainError "[PipeX] Worker stream input exceeds configured limit") :=
        if_pos (by omega)
      rw [hfails] at hcheck
      cases hcheck
    have htail := ih hpiece hrest
    rw [List.flatten_cons, List.length_append]
    simp only at htail
    omega

variable {reverseName : String} (hname : plugin.reverseName = some reverseName)

include hname

/-- The run of a stream of the format whose tasks are answered. -/
theorem createStream_of_encodes {pieces : List Bytes} {payloads : List Bytes}
    (hwire : Encodes limits pieces.flatten payloads)
    (hinput : pieces.flatten.length ≤ pluginInputLimit (some limits.val))
    (hanswer : ∀ payload ∈ payloads, Answered plugin limits reverseName payload)
    (hout : (payloads.flatMap (plugin.reversed reverseName)).length ≤ limits.val.maxOutputBytes) :
    plugin.createStream limits .decompress pieces =
      ⟨(plugin.reverseTasks reverseName payloads).flatMap backEvents, .ok ()⟩ := by
  have hrestored : ∀ task ∈ plugin.reverseTasks reverseName payloads,
      Restored plugin limits reverseName task := by
    intro task htask
    obtain ⟨payload, hpayload, rfl⟩ := List.mem_map.mp htask
    -- a payload is a part of the input
    have hpart : payload.length ≤ pieces.flatten.length := by
      have hrecord : (encodeFrame payload).length ≤ (records payloads).length :=
        (List.sublist_flatten_of_mem (List.mem_map_of_mem hpayload)).length_le
      rw [hwire.format, wireFormat, List.length_append, List.length_append]
      rw [length_encodeFrame] at hrecord
      omega
    exact (hanswer payload hpayload).restored plugin limits (Nat.le_trans hpart hinput)
      (hwire.length_le payload hpayload)
  have hcount : (0 : Nat) + (plugin.reverseTasks reverseName payloads).length ≤
      limits.val.maxFrames := by
    rw [reverseTasks, List.length_map, Nat.zero_add]
    exact hwire.count_le
  have htotal : (0 : Nat) + ((plugin.reverseTasks reverseName payloads).flatMap Prod.fst).length ≤
      limits.val.maxOutputBytes := by
    rw [flatMap_reverseTasks, Nat.zero_add]
    exact hout
  obtain ⟨counters, hrun⟩ := wireLoop_frames plugin limits hname hrestored ⟨0, 0⟩ hcount htotal
  rw [encodeFrames_reverseTasks] at hrun
  rw [createStream_decompress plugin limits hname,
    complete_eq_run plugin limits _ _ (by simpa [DecompressState.start] using hinput),
    hwire.format, wireFormat, List.append_assoc]
  have hstart : (plugin.wireLoop limits).run DecompressState.start.wire
      (magic ++ (records payloads ++ endMarker)) =
        ⟨(plugin.reverseTasks reverseName payloads).flatMap backEvents,
          .ok ⟨counters, true, .length noLength⟩⟩ := by
    rw [← hrun]
    exact wireLoop_magic plugin limits _
  rw [hstart, Emit.bind_ok rfl, decompressFlush_ended, Emit.pure_out, List.append_nil]
  rfl

/-- A stream goes through exactly if its input is of the format, fits, and is answered
    within the limits. -/
theorem decompress_succeeds_iff (pieces : List Bytes) :
    (plugin.createStream limits .decompress pieces).Succeeds ↔
      ∃ payloads, Encodes limits pieces.flatten payloads ∧
        pieces.flatten.length ≤ pluginInputLimit (some limits.val) ∧
        (∀ payload ∈ payloads, Answered plugin limits reverseName payload) ∧
        (payloads.flatMap (plugin.reversed reverseName)).length ≤ limits.val.maxOutputBytes := by
  constructor
  · intro h
    rw [createStream_decompress plugin limits hname] at h
    have hinput := input_le_of_succeeds plugin limits (Nat.zero_le _) h
    rw [complete_eq_run plugin limits _ _ hinput, Emit.succeeds_bind] at h
    obtain ⟨wire, hrun, hflush⟩ := h
    -- a stream that goes through has read a whole encoding
    obtain ⟨payloads, hformat, haccepted⟩ :=
      wireLoop_accepts_start plugin limits hname hrun (decompressFlush_ok hflush)
    refine ⟨payloads, ⟨hformat, ?_, haccepted.length_le⟩, ?_, haccepted.answered, ?_⟩
    · simpa using haccepted.frames_le
    · simpa [DecompressState.start] using hinput
    · simpa using haccepted.output_le
  · rintro ⟨payloads, hwire, hinput, hanswer, hout⟩
    rw [createStream_of_encodes plugin limits hname hwire hinput hanswer hout]
    exact ⟨(), rfl⟩

omit hname

/-- Under the input limit, everything a stream does is the same however its input is
    cut. -/
theorem decompress_cut {pieces pieces' : List Bytes} (hflatten : pieces.flatten = pieces'.flatten)
    (hinput : pieces.flatten.length ≤ pluginInputLimit (some limits.val)) :
    plugin.createStream limits .decompress pieces =
      plugin.createStream limits .decompress pieces' := by
  cases hname : plugin.reverseName with
  | none => simp only [createStream, hname]
  | some reverseName =>
    have hinput' : pieces'.flatten.length ≤ pluginInputLimit (some limits.val) := by
      rw [← hflatten]
      exact hinput
    rw [createStream_decompress plugin limits hname, createStream_decompress plugin limits hname,
      complete_eq_run plugin limits _ _ (by simpa [DecompressState.start] using hinput),
      complete_eq_run plugin limits _ _ (by simpa [DecompressState.start] using hinput'),
      hflatten]

include hname

/-- A `decompress` stream accepts the PXWK grammar under its limits and nothing else,
    and gives the reverse export one task for every record. -/
theorem decompress_accepts_grammar (pieces : List Bytes)
    (hanswer : ∀ payloads, Encodes limits pieces.flatten payloads →
      ∀ payload ∈ payloads, Answered plugin limits reverseName payload) :
    ((plugin.createStream limits .decompress pieces).Succeeds ↔
        ∃ payloads, Encodes limits pieces.flatten payloads ∧
          pieces.flatten.length ≤ pluginInputLimit (some limits.val) ∧
          (payloads.flatMap (plugin.reversed reverseName)).length ≤ limits.val.maxOutputBytes) ∧
      (∀ payloads, Encodes limits pieces.flatten payloads →
        (plugin.createStream limits .decompress pieces).Succeeds →
          taskInputs (plugin.createStream limits .decompress pieces) = payloads ∧
            delivered (plugin.createStream limits .decompress pieces) =
              payloads.flatMap (plugin.reversed reverseName)) ∧
      -- a stream that is cut short, and one that goes on
      (∀ payloads rest, rest ≠ [] → Encodes limits (pieces.flatten ++ rest) payloads →
        ¬ (plugin.createStream limits .decompress pieces).Succeeds) ∧
      (∀ wire payloads rest, rest ≠ [] → Encodes limits wire payloads →
        pieces.flatten = wire ++ rest →
          ¬ (plugin.createStream limits .decompress pieces).Succeeds) ∧
      (¬ magic <+: pieces.flatten →
        ¬ (plugin.createStream limits .decompress pieces).Succeeds) ∧
      (∀ payloads length rest, (∀ payload ∈ payloads, payload.length ≤ maxFrame limits) →
        maxFrame limits < length → length < 0xffffffff →
        pieces.flatten = magic ++ records payloads ++ beBytes lengthBytes length ++ rest →
          ¬ (plugin.createStream limits .decompress pieces).Succeeds) ∧
      (pieces.flatten.length ≤ pluginInputLimit (some limits.val) →
        ∀ pieces', pieces'.flatten = pieces.flatten →
          taskInputs (plugin.createStream limits .decompress pieces') =
            taskInputs (plugin.createStream limits .decompress pieces)) := by
  have hiff := decompress_succeeds_iff plugin limits hname pieces
  refine ⟨?_, ?_, ?_, ?_, ?_, ?_, ?_⟩
  · rw [hiff]
    constructor
    · rintro ⟨payloads, hwire, hinput, -, hout⟩
      exact ⟨payloads, hwire, hinput, hout⟩
    · rintro ⟨payloads, hwire, hinput, hout⟩
      exact ⟨payloads, hwire, hinput, hanswer payloads hwire, hout⟩
  · intro payloads hwire hsucc
    obtain ⟨payloads', hwire', hinput, hanswered, hout⟩ := hiff.mp hsucc
    -- the stream has these payloads and no others
    have hsame : payloads' = payloads := by
      have hformat : wireFormat payloads' ++ [] = wireFormat payloads := by
        rw [List.append_nil, ← hwire'.format, ← hwire.format]
      exact (wireFormat_prefix_free limits hwire'.length_le hwire.length_le hformat).1
    subst hsame
    rw [createStream_of_encodes plugin limits hname hwire hinput hanswered hout]
    refine ⟨?_, ?_⟩
    · rw [taskInputs, filterMap_events (f := Prod.snd) fun _ => rfl, snd_reverseTasks]
    · rw [delivered, delivered_backEvents, flatMap_reverseTasks]
  · intro payloads rest hrest hwire hsucc
    obtain ⟨payloads', hwire', -⟩ := hiff.mp hsucc
    have hformat := hwire.format
    rw [hwire'.format] at hformat
    exact hrest (wireFormat_prefix_free limits hwire'.length_le hwire.length_le hformat).2
  · intro wire payloads rest hrest hwire hpieces hsucc
    obtain ⟨payloads', hwire', -⟩ := hiff.mp hsucc
    have hformat := hwire'.format
    rw [hpieces, hwire.format] at hformat
    exact hrest (wireFormat_prefix_free limits hwire.length_le hwire'.length_le hformat).2
  · intro hmagic hsucc
    obtain ⟨payloads, hwire, -⟩ := hiff.mp hsucc
    apply hmagic
    rw [hwire.format, wireFormat, List.append_assoc]
    exact List.prefix_append _ _
  · intro payloads length rest hle hmax hend hpieces hsucc
    obtain ⟨payloads', hwire', -⟩ := hiff.mp hsucc
    have hformat := hwire'.format
    rw [hpieces, wireFormat, List.append_assoc, List.append_assoc, List.append_assoc] at hformat
    have hcut : records payloads ++ (beBytes lengthBytes length ++ rest) =
        records payloads' ++ (beBytes lengthBytes 0xffffffff ++ []) := by
      rw [List.append_nil, ← endMarker_eq]
      exact List.append_cancel_left hformat
    have hlt : length < 256 ^ lengthBytes := Nat.lt_trans hend (by decide)
    have hsame := (records_cancel limits hle hwire'.length_le hmax hlt (maxFrame_lt_end limits)
      (by decide) hcut).2.1
    omega
  · intro hinput pieces' hflatten
    rw [decompress_cut plugin limits hflatten.symm hinput]

omit hname

/-- Limits of twenty bytes. -/
def twentyBytes : EngineLimits := EngineLimits.ofValues fun _ => 20

theorem twentyBytes_valid : twentyBytes.Valid where
  safe := fun name => by cases name <;> decide
  positive := fun name _ => by cases name <;> decide
  timer := by decide
  keyBytes := by decide

theorem turningPool_answered {payload : Bytes} (h : payload.length ≤ 20) :
    Answered turningPool ⟨twentyBytes, twentyBytes_valid⟩ "turn" payload := by
  refine ⟨payload.reverse, rfl, ?_, ?_⟩ <;> rw [List.length_reverse]
  · exact h
  · exact h

/-- One record in three pieces. -/
theorem decompress_accepts_grammar_turning :
    (turningPool.createStream ⟨twentyBytes, twentyBytes_valid⟩ .decompress
        [[0x50, 0x58, 0x57], [0x4b, 1, 0, 0, 0, 2, 7], [8, 0xff, 0xff, 0xff, 0xff]]).Succeeds ∧
      taskInputs (turningPool.createStream ⟨twentyBytes, twentyBytes_valid⟩ .decompress
        [[0x50, 0x58, 0x57], [0x4b, 1, 0, 0, 0, 2, 7], [8, 0xff, 0xff, 0xff, 0xff]]) =
          [[7, 8]] := by
  obtain ⟨hiff, htasks, -⟩ :=
    decompress_accepts_grammar turningPool ⟨twentyBytes, twentyBytes_valid⟩ rfl
      [[0x50, 0x58, 0x57], [0x4b, 1, 0, 0, 0, 2, 7], [8, 0xff, 0xff, 0xff, 0xff]]
      fun payloads hwire payload hpayload =>
        turningPool_answered (hwire.length_le payload hpayload)
  have hwire : Encodes ⟨twentyBytes, twentyBytes_valid⟩ _ [[7, 8]] :=
    ⟨rfl, by decide, by decide⟩
  have hsucc := hiff.mpr ⟨[[7, 8]], hwire, by decide, by decide⟩
  exact ⟨hsucc, (htasks _ hwire hsucc).1⟩

/-- Beyond the input limit the tasks depend on the cut: a chunk that is too long is
    refused as a whole, with the record in it. -/
theorem tasks_depend_on_cut :
    ¬ ∀ (plugin : WorkerPoolPlugin) (limits : AcceptedLimits) (reverseName : String)
        (pieces pieces' : List Bytes), plugin.reverseName = some reverseName →
      (∀ payload : Bytes, payload.length ≤ maxFrame limits →
        Answered plugin limits reverseName payload) →
      pieces'.flatten = pieces.flatten →
        taskInputs (plugin.createStream limits .decompress pieces') =
          taskInputs (plugin.createStream limits .decompress pieces) := by
  intro h
  have hcut := h turningPool ⟨twentyBytes, twentyBytes_valid⟩ "turn"
    [[0x50, 0x58, 0x57, 0x4b, 1, 0, 0, 0, 8, 1, 2, 3, 4, 5, 6, 7, 8, 0xff, 0xff, 0xff, 0xff]]
    [[0x50, 0x58, 0x57, 0x4b, 1, 0, 0, 0, 8, 1, 2, 3, 4, 5, 6, 7, 8], [0xff, 0xff, 0xff, 0xff]]
    rfl
    (fun payload hpayload => turningPool_answered hpayload) rfl
  revert hcut
  decide

end PipeX.WorkerPoolPlugin
