/-
  PipeX.Core.FrameLimits.Transform

  `buildFrameLimitTransform` of `src/core/frameLimits.ts`: the stage that cuts a
  stream into the frames the scanner finds.

  * `transform_spec` — one chunk: what was retained and the chunk are the frames
    that are pushed and what is retained then.
  * `feed_scanned` — the stage fails where the scanner fails on all of the bytes.
  * `frameLimitTransform_splits` — the stage does not see how its input is cut.
-/
import PipeX.Core.FrameLimits.Acceptance

namespace PipeX.FrameLimits

open Chunked MessagePackFrameScanner

/-- The variables of `buildFrameLimitTransform`. -/
structure FrameLimitState where
  scanner : MessagePackFrameScanner
  frameChunks : List Bytes
  frameBytes : Nat
deriving DecidableEq, Repr

/-- The variables of the loop over the boundaries of one chunk. -/
structure Cut where
  start : Nat
  frameChunks : List Bytes
  frameBytes : Nat
deriving DecidableEq, Repr

/-- `input.subarray(start, end)`. -/
def subarray (input : Bytes) (start stop : Nat) : Bytes := (input.take stop).drop start

/-- `frameChunks.push(part)` with its count. -/
def Cut.retain (cut : Cut) (part : Bytes) : Cut :=
  { cut with
    frameChunks := cut.frameChunks ++ [part]
    frameBytes := cut.frameBytes + part.length }

/-- `frameChunks.length === 1 ? frameChunks[0] : Buffer.concat(frameChunks, frameBytes)`. -/
def Cut.frame (cut : Cut) : Bytes :=
  match cut.frameChunks with
  | [chunk] => chunk
  | frameChunks => bufferConcat frameChunks cut.frameBytes

/-- One pass of the loop over the boundaries. -/
def pushFrame (input : Bytes) (cut : Cut) (boundary : Nat) : Emit Bytes JsError Cut := do
  let part := subarray input cut.start boundary
  let cut := if part.length > 0 then cut.retain part else cut
  Emit.push cut.frame
  return ⟨boundary, [], 0⟩

/-- `buildFrameLimitTransform(maxFrameBytes, maxFrames)`. -/
def buildFrameLimitTransform (maxFrameBytes maxFrames : Nat) :
    Transform FrameLimitState Bytes Bytes JsError where
  transform s input := do
    let (scanner, boundaries) ← s.scanner.scan maxFrameBytes maxFrames input
    let cut ← boundaries.foldlM (pushFrame input) ⟨0, s.frameChunks, s.frameBytes⟩
    let cut := if cut.start < input.length then cut.retain (input.drop cut.start) else cut
    return ⟨scanner, cut.frameChunks, cut.frameBytes⟩
  flush s := Emit.ofExcept s.scanner.finish

/-- The stage before the first chunk. -/
def FrameLimitState.initial : FrameLimitState := ⟨MessagePackFrameScanner.new, [], 0⟩

/-! ## Cutting a chunk -/

/-- What is retained is counted. -/
def Cut.Counted (cut : Cut) : Prop := cut.frameChunks.flatten.length = cut.frameBytes

theorem Cut.retain_flatten (cut : Cut) (part : Bytes) :
    (cut.retain part).frameChunks.flatten = cut.frameChunks.flatten ++ part := by
  simp [retain]

theorem Cut.Counted.retain {cut : Cut} (h : cut.Counted) (part : Bytes) :
    (cut.retain part).Counted := by
  have h : cut.frameChunks.flatten.length = cut.frameBytes := h
  rw [Counted, retain_flatten, List.length_append, h]
  rfl

/-- An empty part may be left out. -/
theorem Cut.retain_if {cut : Cut} (h : cut.Counted) (part : Bytes) :
    ∃ cut', (if part.length > 0 then cut.retain part else cut) = cut' ∧ cut'.Counted ∧
      cut'.start = cut.start ∧ cut'.frameChunks.flatten = cut.frameChunks.flatten ++ part := by
  split
  · exact ⟨_, rfl, h.retain part, rfl, cut.retain_flatten part⟩
  · rename_i hpart
    rw [List.length_eq_zero_iff.mp (Nat.eq_zero_of_not_pos hpart), List.append_nil]
    exact ⟨_, rfl, h, rfl, rfl⟩

theorem Cut.frame_eq {cut : Cut} (h : cut.Counted) : cut.frame = cut.frameChunks.flatten := by
  rw [frame]
  split
  · rename_i chunk hchunk
    rw [hchunk, List.flatten_singleton]
  · exact bufferConcat_eq_flatten h

/-- What is pushed is what was retained and the part in front of the boundary. -/
theorem pushFrame_eq {input : Bytes} {cut : Cut} (h : cut.Counted) (boundary : Nat) :
    pushFrame input cut boundary =
      ⟨[cut.frameChunks.flatten ++ subarray input cut.start boundary],
        .ok ⟨boundary, [], 0⟩⟩ := by
  obtain ⟨cut', heq, hcounted, -, hflatten⟩ := Cut.retain_if h (subarray input cut.start boundary)
  simp only [pushFrame, heq, Cut.frame_eq hcounted, hflatten]
  rfl

/-- Where the first of several values ends in the input, with what is before and
    behind it. -/
theorem cut_first {input retained v tail : Bytes} {start boundary : Nat}
    (hstart : start ≤ input.length) (hfirst : retained.length ≤ v.length)
    (hboundary : boundary + retained.length = start + v.length)
    (heq : retained ++ input.drop start = v ++ tail) :
    boundary ≤ input.length ∧ retained ++ subarray input start boundary = v ∧
      input.drop boundary = tail := by
  have hlen := congrArg List.length heq
  simp only [List.length_append, List.length_drop] at hlen
  have hsub : boundary - start = v.length - retained.length := by omega
  have hmore : boundary = start + (v.length - retained.length) := by omega
  have hv := congrArg (List.take v.length) heq
  have htail := congrArg (List.drop v.length) heq
  rw [List.take_left] at hv
  rw [List.drop_left, List.drop_append, List.drop_of_length_le hfirst, List.nil_append,
    List.drop_drop] at htail
  refine ⟨by omega, ?_, ?_⟩
  · rw [← hv, List.take_append, List.take_of_length_le hfirst, subarray, List.drop_take, hsub]
  · rw [hmore, htail]

/-- The loop pushes the values that end at the boundaries. -/
theorem pushFrames {input rest : Bytes} {vs : List Bytes} {cut : Cut} {boundaries : List Nat}
    (h : cut.Counted) (hstart : cut.start ≤ input.length)
    (hfirst : ∀ v ∈ vs.head?, cut.frameBytes ≤ v.length)
    (heq : cut.frameChunks.flatten ++ input.drop cut.start = vs.flatten ++ rest)
    (hends : boundaries.map (· + cut.frameBytes) = ends cut.start vs) :
    ∃ cut', boundaries.foldlM (pushFrame input) cut = ⟨vs, .ok cut'⟩ ∧ cut'.Counted ∧
      cut'.start ≤ input.length ∧ cut'.frameChunks.flatten ++ input.drop cut'.start = rest := by
  induction vs generalizing cut boundaries with
  | nil =>
    rw [ends, List.map_eq_nil_iff] at hends
    subst hends
    exact ⟨cut, rfl, h, hstart, heq⟩
  | cons v vs ih =>
    have hcount : cut.frameChunks.flatten.length = cut.frameBytes := h
    rw [ends, List.map_eq_cons_iff] at hends
    obtain ⟨boundary, boundaries, rfl, hboundary, hends⟩ := hends
    rw [List.flatten_cons, List.append_assoc] at heq
    have hfirst := hfirst v rfl
    obtain ⟨hle, hframe, hdrop⟩ :=
      cut_first hstart (by omega) (by rw [hcount]; exact hboundary) heq
    -- behind the first boundary nothing is retained
    have hends' : boundaries.map (· + 0) = ends boundary vs := by
      rw [← hboundary, ends_add] at hends
      simpa using List.map_injective_iff.mpr (add_left_injective cut.frameBytes) hends
    have hfirst' : ∀ w ∈ vs.head?, 0 ≤ w.length := fun w _ => Nat.zero_le _
    obtain ⟨cut', hrun, hcut'⟩ := @ih ⟨boundary, [], 0⟩ boundaries rfl hle hfirst' hdrop hends'
    refine ⟨cut', ?_, hcut'⟩
    rw [List.foldlM_cons, pushFrame_eq h, hframe]
    exact (Emit.bind_ok rfl _).trans (by rw [hrun]; rfl)

/-! ## One chunk -/

variable {maxFrameBytes maxFrames : Nat}

/-- What is retained between two chunks is what the scanner has read of a frame. -/
structure Retained (maxFrameBytes maxFrames : Nat) (s : FrameLimitState) : Prop where
  counted : s.frameChunks.flatten.length = s.frameBytes
  between : Between maxFrameBytes s.frameChunks.flatten s.scanner
  frames : s.scanner.frames ≤ maxFrames

theorem retained_initial : Retained maxFrameBytes maxFrames FrameLimitState.initial :=
  ⟨rfl, between_new maxFrameBytes, Nat.zero_le _⟩

/-- The scanner behind a chunk. -/
def scanned (maxFrameBytes maxFrames : Nat) (s : MessagePackFrameScanner) (chunk : Bytes) :
    Except JsError MessagePackFrameScanner :=
  (s.scan maxFrameBytes maxFrames chunk).map Prod.fst

theorem transform_error {s : FrameLimitState} {input : Bytes} {e : JsError}
    (h : scanned maxFrameBytes maxFrames s.scanner input = .error e) :
    (buildFrameLimitTransform maxFrameBytes maxFrames).transform s input = Emit.fail e := by
  simp only [scanned] at h
  cases hscan : s.scanner.scan maxFrameBytes maxFrames input with
  | error e' =>
    rw [hscan] at h
    cases h
    simp only [buildFrameLimitTransform, hscan]
    rfl
  | ok r =>
    rw [hscan] at h
    cases h

/-- What was retained and the chunk are the frames that are pushed and what is
    retained then. -/
theorem transform_spec {s : FrameLimitState} (h : Retained maxFrameBytes maxFrames s)
    {input : Bytes} {scanner : MessagePackFrameScanner}
    (hscan : scanned maxFrameBytes maxFrames s.scanner input = .ok scanner) :
    ∃ vs s', (buildFrameLimitTransform maxFrameBytes maxFrames).transform s input = ⟨vs, .ok s'⟩ ∧
      s'.scanner = scanner ∧ Retained maxFrameBytes maxFrames s' ∧
      (∀ v ∈ vs, IsValue v ∧ v.length ≤ maxFrameBytes) ∧
      s.frameChunks.flatten ++ input = vs.flatten ++ s'.frameChunks.flatten := by
  simp only [scanned, scan] at hscan
  cases hrun : ((scanLoop maxFrameBytes maxFrames).run ⟨s.scanner, 0⟩ input).result with
  | error e =>
    rw [hrun] at hscan
    cases hscan
  | ok t =>
    rw [hrun] at hscan
    cases hscan
    obtain ⟨vs, rest, heq, hvs, hbetween, -, hframes, hends⟩ :=
      @run_sound maxFrameBytes maxFrames s.frameChunks.flatten input ⟨s.scanner, 0⟩ t h.between
        h.frames hrun
    -- the first value ends behind what was retained of it
    have hfirst : ∀ v ∈ vs.head?, s.frameBytes ≤ v.length := by
      intro v hv
      obtain ⟨ws, rfl⟩ := List.head?_eq_some_iff.mp hv
      have hfront : v <+: s.frameChunks.flatten ++ input := by
        rw [heq, List.flatten_cons, List.append_assoc]
        exact List.prefix_append _ _
      rw [← h.counted]
      exact Nat.le_of_lt (h.between.length_lt (hvs v (by simp)).1 hfront)
    rw [h.counted] at hends
    -- the cuts of the loop are the ends of the values
    obtain ⟨cut, hcut, hcounted, hle, hrest⟩ :=
      @pushFrames input rest vs ⟨0, s.frameChunks, s.frameBytes⟩ _ h.counted (Nat.zero_le _) hfirst
        heq hends
    -- and the rest is retained
    obtain ⟨cut', hcut', hcounted', -, hflatten⟩ := Cut.retain_if hcounted (input.drop cut.start)
    rw [hrest] at hflatten
    have hpart : (input.drop cut.start).length > 0 ↔ cut.start < input.length := by
      rw [List.length_drop]
      omega
    simp only [hpart] at hcut'
    refine ⟨vs, ⟨t.scanner, cut'.frameChunks, cut'.frameBytes⟩, ?_, rfl,
      ⟨hcounted', by rw [hflatten]; exact hbetween, hframes⟩, hvs, by rw [hflatten]; exact heq⟩
    simp only [buildFrameLimitTransform, scan, hrun, Except.map, Emit.liftM_eq, Emit.ofExcept_ok,
      pure_bind, hcut]
    rw [Emit.bind_ok rfl, hcut']
    simp

/-! ## All chunks -/

theorem completeIfReady_offset (scanner : MessagePackFrameScanner) (offset : Nat) :
    (completeIfReady maxFrames ⟨scanner, offset⟩).result =
      ((completeIfReady maxFrames ⟨scanner, 0⟩).result.map (·.scanner)).map (⟨·, offset⟩) := by
  simp only [completeIfReady]
  split
  · rfl
  · split <;> rfl

/-- Offsets are counted, but nothing depends on them. -/
theorem run_offset (scanner : MessagePackFrameScanner) (offset : Nat) (q : Bytes) :
    ((scanLoop maxFrameBytes maxFrames).run ⟨scanner, offset⟩ q).result.map (·.scanner) =
      scanned maxFrameBytes maxFrames scanner q := by
  suffices key : ∀ offset',
      ((scanLoop maxFrameBytes maxFrames).run ⟨scanner, offset⟩ q).result.map (·.scanner) =
        ((scanLoop maxFrameBytes maxFrames).run ⟨scanner, offset'⟩ q).result.map (·.scanner) by
    rw [key 0, scanned, scan]
    cases ((scanLoop maxFrameBytes maxFrames).run ⟨scanner, 0⟩ q).result <;> rfl
  induction q generalizing scanner offset with
  | nil => exact fun _ => rfl
  | cons b q ih =>
    intro offset'
    simp only [run_cons, Emit.bind_result, Emit.ofExcept_result]
    cases scanner.advance maxFrameBytes b with
    | error e => rfl
    | ok s₁ =>
      simp only [Except.bind]
      rw [completeIfReady_offset s₁ (offset + 1), completeIfReady_offset s₁ (offset' + 1)]
      cases (completeIfReady maxFrames ⟨s₁, 0⟩).result with
      | error e => rfl
      | ok t => exact ih t.scanner (offset + 1) (offset' + 1)

theorem scanned_append (s : MessagePackFrameScanner) (a b : Bytes) :
    scanned maxFrameBytes maxFrames s (a ++ b) =
      scanned maxFrameBytes maxFrames s a >>= fun s' => scanned maxFrameBytes maxFrames s' b := by
  rw [← run_offset s 0 (a ++ b), ← run_offset s 0 a,
    (scanLoop_splits maxFrameBytes maxFrames).run_append, Emit.bind_result]
  cases ((scanLoop maxFrameBytes maxFrames).run ⟨s, 0⟩ a).result with
  | error e => rfl
  | ok t => exact run_offset t.scanner t.offset b

/-- After any chunks: the stage is where the scanner is on all of their bytes, and
    what it has pushed are values at their beginning. -/
theorem feed_spec {s : FrameLimitState} (h : Retained maxFrameBytes maxFrames s)
    (chunks : List Bytes) :
    ((buildFrameLimitTransform maxFrameBytes maxFrames).feed s chunks).result.map (·.scanner) =
        scanned maxFrameBytes maxFrames s.scanner chunks.flatten ∧
      (∀ v ∈ ((buildFrameLimitTransform maxFrameBytes maxFrames).feed s chunks).out,
        IsValue v ∧ v.length ≤ maxFrameBytes) ∧
      ∃ rest, s.frameChunks.flatten ++ chunks.flatten =
          ((buildFrameLimitTransform maxFrameBytes maxFrames).feed s chunks).out.flatten ++ rest ∧
        ∀ s', ((buildFrameLimitTransform maxFrameBytes maxFrames).feed s chunks).result = .ok s' →
          Retained maxFrameBytes maxFrames s' ∧ s'.frameChunks.flatten = rest := by
  -- the invariant is carried over one chunk after another
  induction chunks generalizing s with
  | nil =>
    refine ⟨rfl, by simp, s.frameChunks.flatten, by simp, fun s' hs' => ?_⟩
    cases hs'
    exact ⟨h, rfl⟩
  | cons c cs ih =>
    rw [Transform.feed_cons, List.flatten_cons, scanned_append]
    cases hscan : scanned maxFrameBytes maxFrames s.scanner c with
    | error e =>
      rw [transform_error hscan, Emit.fail_bind]
      exact ⟨rfl, by simp, _, rfl, fun s' hs' => by cases hs'⟩
    | ok scanner =>
      obtain ⟨vs, s₁, htransform, hscanner, hretained, hvs, heq⟩ := transform_spec h hscan
      obtain ⟨hresult, hout, rest, hrest, hok⟩ := ih hretained
      have hok₁ : ((buildFrameLimitTransform maxFrameBytes maxFrames).transform s c).result =
          .ok s₁ := by
        rw [htransform]
      rw [Emit.bind_ok hok₁, htransform]
      rw [hscanner] at hresult
      refine ⟨hresult, ?_, rest, ?_, hok⟩
      · intro v hv
        rcases List.mem_append.mp hv with hv | hv
        · exact hvs v hv
        · exact hout v hv
      · rw [List.flatten_append, List.append_assoc, ← hrest, ← List.append_assoc, heq,
          List.append_assoc]

/-! ## The values of a byte string -/

/-- The values that a byte string begins with, as many as there are. -/
structure TopLevelValues (b : Bytes) (ws : List Bytes) : Prop where
  values : ∀ w ∈ ws, IsValue w
  front : ws.flatten <+: b
  maximal : ∀ vs : List Bytes, (∀ v ∈ vs, IsValue v) → vs.flatten <+: b → vs <+: ws

theorem exists_topLevelValues (b : Bytes) : ∃ ws, TopLevelValues b ws := by
  classical
  let P : Nat → Prop := fun n =>
    ∃ vs : List Bytes, vs.length = n ∧ (∀ v ∈ vs, IsValue v) ∧ vs.flatten <+: b
  have hbound : ∀ n, P n → n ≤ b.length := by
    rintro _ ⟨vs, rfl, hvs, hfront⟩
    exact (Residual.values_length_le ⟨vs, rfl, hvs, rfl⟩).trans hfront.length_le
  obtain ⟨ws, hlen, hws, hfront⟩ : P (Nat.findGreatest P b.length) :=
    Nat.findGreatest_spec (Nat.zero_le _) ⟨[], rfl, by simp, List.nil_prefix⟩
  refine ⟨ws, hws, hfront, fun vs hvs hvs' => ?_⟩
  have hP : P vs.length := ⟨vs, rfl, hvs, hvs'⟩
  have hmax : vs.length ≤ ws.length := by
    rw [hlen]
    exact Nat.le_findGreatest (hbound _ hP) hP
  rcases values_comparable hvs hws hvs' hfront with h | h
  · exact h
  · rw [h.eq_of_length_le hmax]

/-- If all of the byte string are values, then these are the ones. -/
theorem TopLevelValues.eq_of_flatten {b : Bytes} {vs ws : List Bytes} (h : TopLevelValues b ws)
    (hvs : ∀ v ∈ vs, IsValue v) (hb : vs.flatten = b) : vs = ws := by
  obtain ⟨more, rfl⟩ := h.maximal vs hvs (by rw [hb])
  have hfront := h.front.length_le
  rw [← hb, List.flatten_append, List.length_append] at hfront
  have hmore : more.length ≤ more.flatten.length :=
    Residual.values_length_le ⟨more, rfl, fun v hv => h.values v (by simp [hv]), rfl⟩
  rw [List.length_eq_zero_iff.mp (show more.length = 0 by omega), List.append_nil]

theorem exists_assert_iff {input : Bytes} :
    (∃ n, assertMessagePackFrameLimits input maxFrameBytes maxFrames = .ok n) ↔
      ∃ s, scanned maxFrameBytes maxFrames MessagePackFrameScanner.new input = .ok s ∧
        s.finish = .ok () := by
  simp only [assertMessagePackFrameLimits_eq_ok, ← run_offset MessagePackFrameScanner.new 0 input]
  constructor
  · rintro ⟨_, t, ht, hfinish, -⟩
    exact ⟨t.scanner, by rw [ht]; rfl, hfinish⟩
  · rintro ⟨s, hs, hfinish⟩
    cases hrun : ((scanLoop maxFrameBytes maxFrames).run
        ⟨MessagePackFrameScanner.new, 0⟩ input).result with
    | error e =>
      rw [hrun] at hs
      cases hs
    | ok t =>
      rw [hrun] at hs
      cases hs
      exact ⟨_, t, rfl, hfinish, rfl⟩

theorem complete_succeeds_iff {chunks : List Bytes} :
    ((buildFrameLimitTransform maxFrameBytes maxFrames).complete .initial chunks).Succeeds ↔
      ∃ s, ((buildFrameLimitTransform maxFrameBytes maxFrames).feed .initial chunks).result = .ok s ∧
        s.scanner.finish = .ok () := by
  rw [Transform.complete, Emit.succeeds_bind]
  refine exists_congr fun s => and_congr_right fun _ => ?_
  constructor
  · rintro ⟨u, hu⟩
    exact hu
  · exact fun h => ⟨(), h⟩

theorem complete_out (chunks : List Bytes) :
    ((buildFrameLimitTransform maxFrameBytes maxFrames).complete .initial chunks).out =
      ((buildFrameLimitTransform maxFrameBytes maxFrames).feed .initial chunks).out := by
  rw [Transform.complete]
  cases h : ((buildFrameLimitTransform maxFrameBytes maxFrames).feed .initial chunks).result with
  | error e => rw [Emit.bind_error h]
  | ok s =>
    rw [Emit.bind_ok h]
    exact List.append_nil _

/-- However its input is cut, the stage fails exactly where the check of the whole
    input fails, and pushes the values of the input one by one: all of them, or a
    beginning of them if it fails.  Between two chunks it retains what the scanner
    counts, which is within the limit. -/
theorem frameLimitTransform_splits (maxFrameBytes maxFrames : Nat) (chunks : List Bytes) :
    let stage := buildFrameLimitTransform maxFrameBytes maxFrames
    let call := stage.complete .initial chunks
    (call.Succeeds ↔
        ∃ n, assertMessagePackFrameLimits chunks.flatten maxFrameBytes maxFrames = .ok n) ∧
      (∃ ws, TopLevelValues chunks.flatten ws ∧ call.out <+: ws ∧
        (call.Succeeds → call.out = ws ∧ ws.flatten = chunks.flatten)) ∧
      ∀ fed s, fed <+: chunks → (stage.feed .initial fed).result = .ok s →
        s.frameChunks.flatten.length = s.scanner.frameBytes ∧
          s.frameBytes = s.scanner.frameBytes ∧ s.scanner.frameBytes ≤ maxFrameBytes := by
  have hinitial := @retained_initial maxFrameBytes maxFrames
  obtain ⟨hresult, hvalues, rest, heq, hok⟩ := feed_spec hinitial chunks
  have heq : chunks.flatten = _ := heq
  refine ⟨?_, ?_, ?_⟩
  · -- both sides scan the same bytes and end at the same state
    rw [exists_assert_iff, complete_succeeds_iff]
    constructor
    · rintro ⟨s, hs, hfinish⟩
      rw [hs] at hresult
      exact ⟨s.scanner, hresult.symm, hfinish⟩
    · rintro ⟨scanner, hscan, hfinish⟩
      rw [show FrameLimitState.initial.scanner = .new from rfl, hscan] at hresult
      cases hs : ((buildFrameLimitTransform maxFrameBytes maxFrames).feed .initial chunks).result with
      | error e =>
        rw [hs] at hresult
        cases hresult
      | ok s =>
        rw [hs] at hresult
        cases hresult
        exact ⟨s, rfl, hfinish⟩
  · -- what comes out are values of the input, from its front on
    obtain ⟨ws, hws⟩ := exists_topLevelValues chunks.flatten
    rw [complete_out]
    have hisValue := fun v hv => (hvalues v hv).1
    refine ⟨ws, hws, hws.maximal _ hisValue ?_, fun hsucceeds => ?_⟩
    · rw [heq]
      exact List.prefix_append _ _
    · obtain ⟨s, hs, hfinish⟩ := complete_succeeds_iff.mp hsucceeds
      obtain ⟨hretained, hrest⟩ := hok s hs
      rw [(finish_iff hretained.between).mp hfinish] at hrest
      rw [← hrest, List.append_nil] at heq
      have hall := hws.eq_of_flatten hisValue heq.symm
      exact ⟨hall, by rw [← hall, ← heq]⟩
  · -- what is retained is the value that has begun
    intro fed s _ hs
    obtain ⟨-, -, _, -, hok⟩ := feed_spec hinitial fed
    obtain ⟨hretained, -⟩ := hok s hs
    have hbytes := hretained.between.bytes
    have hfits := hretained.between.fits
    exact ⟨hbytes.symm, by rw [hbytes, hretained.counted], by omega⟩

end PipeX.FrameLimits
