/-
  PipeX.Plugin.EncryptionFormat.StreamDecryption

  The decryption stream accepts what `decryptBuffer` accepts, and releases the
  same plaintext, however its input is cut.

  * `framedLoop_splits` — `consumeFramed` cannot see where a chunk ends, so all
    chunks together are one run over the whole input.
  * `framedPass_boundary` — between two frames, one pass of the stream and one
    pass of the buffer loop do the same.
  * `framedLoop_agrees` — the simulation, by induction on what is left.
-/
import PipeX.Plugin.EncryptionFormat.Stream

namespace PipeX.EncryptionFormat

open Chunked Aead

namespace DecryptionStream

variable (crypto : Crypto) (stream : DecryptionStream)

/-! ## Chunks do not matter -/

@[simp] theorem framedLoop_body : (framedLoop crypto stream).body = framedPass crypto stream := rfl

/-- Opening a frame overwrites the stage. -/
theorem bodyPass_stage (s : FramedState) (stage : Stage) (parsedHeader : ParsedHeader)
    (derivedKey frameHeader : Bytes)
    (received : Partial UInt8 (readCiphertextBytes frameHeader + tagLength)) (input : Bytes) :
    bodyPass crypto { s with stage } parsedHeader derivedKey frameHeader received input =
      bodyPass crypto s parsedHeader derivedKey frameHeader received input := by
  have hafter : ∀ type restored,
      ({ s with stage } : FramedState).afterFrame parsedHeader derivedKey type restored =
        s.afterFrame parsedHeader derivedKey type restored := by
    intro type restored
    simp only [FramedState.afterFrame]
  simp only [bodyPass, hafter]

/-- A pass that starts inside a frame body goes on filling it. -/
theorem framedPass_frameBody (s : FramedState) (hseen : s.finalSeen = false)
    (parsedHeader : ParsedHeader) (derivedKey frameHeader : Bytes)
    (received : Partial UInt8 (readCiphertextBytes frameHeader + tagLength)) (input : Bytes) :
    framedPass crypto stream
        { s with stage := .frameBody parsedHeader derivedKey frameHeader received } input =
      bodyPass crypto s parsedHeader derivedKey frameHeader received input := by
  rw [← bodyPass_stage crypto s (.frameBody parsedHeader derivedKey frameHeader received)]
  exact if_neg (by simp [hseen])

/-- A frame body that is cut short is opened once its rest has come. -/
theorem bodyPass_append (s : FramedState) (parsedHeader : ParsedHeader)
    (derivedKey frameHeader : Bytes)
    (received : Partial UInt8 (readCiphertextBytes frameHeader + tagLength)) (a b : Bytes)
    (hseen : s.finalSeen = false) :
    bodyPass crypto s parsedHeader derivedKey frameHeader received (a ++ b) =
      bodyPass crypto s parsedHeader derivedKey frameHeader received a >>=
        (framedLoop crypto stream).resume b := by
  cases hfill : received.fill a with
  | more p =>
    rw [bodyPass, bodyPass, hfill, Partial.fill_append_of_more b hfill]
    simp only [pure_bind, InputLoop.resume_more, framedLoop_body]
    rw [framedPass_frameBody crypto stream s hseen, bodyPass]
  | full body rest =>
    simp only [bodyPass, hfill, Partial.fill_append_of_full b hfill, bind_assoc]
    refine Emit.bind_congr' fun restored _ => ?_
    split <;> simp only [bind_assoc, pure_bind, InputLoop.resume_done]

/-- A pass that starts between two frames or inside a frame header. -/
theorem framedPass_frameHeader (s : FramedState) (hseen : s.finalSeen = false)
    (parsedHeader : ParsedHeader) (derivedKey : Bytes)
    (received : Partial UInt8 frameHeaderLength) (input : Bytes) :
    framedPass crypto stream { s with stage := .frameHeader parsedHeader derivedKey received }
        input =
      match received.fill input with
      | .more p => pure (.more { s with stage := .frameHeader parsedHeader derivedKey p })
      | .full frameHeader rest =>
        Emit.ofExcept (checkFrameHeader stream.limits parsedHeader s.expectedSequence s.dataFrames
          s.totalOutput frameHeader) >>= fun _ =>
            bodyPass crypto s parsedHeader derivedKey frameHeader
              (noFrameBody frameHeader) rest := by
  refine (if_neg (by simp [hseen])).trans ?_
  simp only [bodyPass_stage]
  cases received.fill input <;> rfl

theorem framedLoop_splits : (framedLoop crypto stream).Splits := by
  intro s a b _ _
  simp only [framedLoop_body]
  obtain ⟨stage, totalOutput, expectedSequence, dataFrames, finalSeen⟩ := s
  cases finalSeen with
  | true => rfl
  | false =>
  cases stage with
  | globalHeader received =>
    cases hfill : received.fill a with
    | more p =>
      simp only [framedPass, hfill, Partial.fill_append_of_more b hfill, pure_bind,
        Bool.false_eq_true, if_false, InputLoop.resume_more, framedLoop_body]
    | full bytes rest =>
      simp only [framedPass, hfill, Partial.fill_append_of_full b hfill, pure_bind, bind_assoc,
        Bool.false_eq_true, if_false, InputLoop.resume_done]
  | frameHeader parsedHeader derivedKey received =>
    have hpass := framedPass_frameHeader crypto stream
      ⟨.frameHeader parsedHeader derivedKey received, totalOutput, expectedSequence, dataFrames,
        false⟩ rfl parsedHeader derivedKey
    rw [hpass, hpass]
    cases hfill : received.fill a with
    | more p =>
      rw [Partial.fill_append_of_more b hfill]
      simp only [pure_bind, InputLoop.resume_more, framedLoop_body]
      rw [hpass]
    | full frameHeader rest =>
      rw [Partial.fill_append_of_full b hfill]
      simp only [bind_assoc]
      refine Emit.bind_congr' fun _ _ => ?_
      exact bodyPass_append crypto stream _ parsedHeader derivedKey frameHeader _ rest b rfl
  | frameBody parsedHeader derivedKey frameHeader received =>
    have hpass := framedPass_frameBody crypto stream
      ⟨.frameBody parsedHeader derivedKey frameHeader received, totalOutput, expectedSequence,
        dataFrames, false⟩ rfl parsedHeader derivedKey frameHeader received
    rw [hpass, hpass]
    exact bodyPass_append crypto stream _ parsedHeader derivedKey frameHeader received a b rfl

/-! ## One frame -/

/-- The stream between two frames, where the buffer loop has the locals `t`. -/
def boundary (parsedHeader : ParsedHeader) (derivedKey : Bytes) (t : DecryptState) :
    FramedState :=
  ⟨.frameHeader parsedHeader derivedKey noFrameHeader, t.plaintextBytes, t.expectedSequence,
    t.dataFrames, t.finalSeen⟩

theorem boundary_afterFrame (parsedHeader : ParsedHeader) (derivedKey : Bytes)
    (t : DecryptState) (type : Nat) (restored : Bytes) :
    (boundary parsedHeader derivedKey t).afterFrame parsedHeader derivedKey type restored =
      boundary parsedHeader derivedKey (t.afterFrame type restored) := by
  simp only [FramedState.afterFrame, DecryptState.afterFrame]
  split <;> rfl

/-- Between two frames the stream ends well exactly behind a final frame. -/
theorem atEnd_boundary (parsedHeader : ParsedHeader) (derivedKey : Bytes) (t : DecryptState) :
    atEnd (boundary parsedHeader derivedKey t) =
      if t.finalSeen = false then
        .error (plainError "[PipeX] Decryption failed: missing authenticated final frame")
      else .ok () := rfl

theorem framedPass_boundary (parsedHeader : ParsedHeader) (derivedKey : Bytes)
    {t : DecryptState} (hseen : t.finalSeen = false) (input : Bytes) :
    framedPass crypto stream (boundary parsedHeader derivedKey t) input =
      match noFrameHeader.fill input with
      | .more p => pure (.more { boundary parsedHeader derivedKey t with
          stage := .frameHeader parsedHeader derivedKey p })
      | .full frameHeader rest =>
        Emit.ofExcept (checkFrameHeader stream.limits parsedHeader t.expectedSequence t.dataFrames
          t.plaintextBytes frameHeader) >>= fun _ =>
            bodyPass crypto (boundary parsedHeader derivedKey t) parsedHeader derivedKey frameHeader
              (noFrameBody frameHeader) rest :=
  framedPass_frameHeader crypto stream (boundary parsedHeader derivedKey t) hseen parsedHeader
    derivedKey noFrameHeader input

/-- The stream's pass over a frame that the buffer loop opens. -/
theorem framedPass_boundary_ok {parsedHeader : ParsedHeader} {derivedKey : Bytes}
    {t t' : DecryptState} {rest rest' : Bytes}
    (h : decryptPass crypto stream.limits parsedHeader derivedKey t rest = .ok (t', rest')) :
    ∃ released, t'.plaintext = t.plaintext ++ released ∧
      framedPass crypto stream (boundary parsedHeader derivedKey t) rest =
        ⟨released, .ok (.done (boundary parsedHeader derivedKey t') rest')⟩ := by
  obtain ⟨hseen, frameHeader, ciphertext, tag, restored, rfl, hfh, hct, htag, hcheck, hopen, rfl⟩ :=
    decryptPass_ok crypto stream.limits parsedHeader derivedKey h
  have hbody : (ciphertext ++ tag).length = readCiphertextBytes frameHeader + tagLength := by
    rw [List.length_append, hct, htag]
  have hfill : (noFrameBody frameHeader).fill (ciphertext ++ tag ++ rest') =
      .full (ciphertext ++ tag) rest' := Partial.fill_empty_append _ hbody rest'
  rw [framedPass_boundary crypto stream parsedHeader derivedKey hseen, List.append_assoc,
    List.append_assoc, noFrameHeader, Partial.fill_empty_append _ hfh]
  simp only [hcheck, Emit.ofExcept_ok, pure_bind, bodyPass]
  rw [← List.append_assoc, hfill]
  simp only [← hct, List.take_left, List.drop_left, hopen, Emit.liftM_eq, Emit.ofExcept_ok,
    pure_bind, boundary_afterFrame]
  by_cases htype : readFrameType frameHeader = finalFrame
  · refine ⟨[], ?_, ?_⟩
    · simp [DecryptState.afterFrame, htype]
    · rw [if_neg (fun hne => hne htype)]
      rfl
  · refine ⟨[restored], ?_, ?_⟩
    · simp [DecryptState.afterFrame, htype]
    · rw [if_pos htype]
      rfl

/-- The stream's pass over what the buffer loop refuses: it fails too, or it has
    run out of input inside a frame.  Nothing is released either way. -/
theorem framedPass_boundary_error {parsedHeader : ParsedHeader} {derivedKey : Bytes}
    {t : DecryptState} {rest : Bytes} {e : JsError} (hrest : rest ≠ [])
    (h : decryptPass crypto stream.limits parsedHeader derivedKey t rest = .error e) :
    (framedPass crypto stream (boundary parsedHeader derivedKey t) rest).out = [] ∧
      ∀ p, (framedPass crypto stream (boundary parsedHeader derivedKey t) rest).result = .ok p →
        ∃ s', p = .more s' ∧ ∃ e', atEnd s' = .error e' := by
  cases hseen : t.finalSeen with
  | true =>
    have hfail : framedPass crypto stream (boundary parsedHeader derivedKey t) rest =
        Emit.fail (plainError "[PipeX] Decryption failed: trailing data after final frame") :=
      if_pos hseen
    rw [hfail]
    exact ⟨rfl, fun p hp => by cases hp⟩
  | false =>
  rw [framedPass_boundary crypto stream parsedHeader derivedKey hseen]
  rcases Partial.fill_cases noFrameHeader rest with ⟨hlt, hfill⟩ | ⟨frameHeader, rest₁, hfill, hfh, heq⟩
  · -- the frame header is cut short
    rw [hfill]
    refine ⟨rfl, fun p hp => ?_⟩
    cases hp
    refine ⟨_, rfl, _, if_pos ?_⟩
    simpa [noFrameHeader, Partial.empty] using hrest
  · rw [hfill]
    have hsplit : rest = frameHeader ++ rest₁ := by
      simpa [noFrameHeader, Partial.empty] using heq
    subst hsplit
    simp only
    cases hcheck : checkFrameHeader stream.limits parsedHeader t.expectedSequence t.dataFrames
        t.plaintextBytes frameHeader with
    | error e' => exact ⟨rfl, fun p hp => by cases hp⟩
    | ok _ =>
      simp only [Emit.ofExcept_ok, pure_bind, bodyPass]
      rcases Partial.fill_cases (noFrameBody frameHeader) rest₁ with
        ⟨hlt, hbody⟩ | ⟨body, rest₂, hbody, hlen, heq₂⟩
      · -- the frame body is cut short
        rw [hbody]
        refine ⟨rfl, fun p hp => ?_⟩
        cases hp
        exact ⟨_, rfl, _, rfl⟩
      · rw [hbody]
        have hsplit : rest₁ = body ++ rest₂ := by
          simpa [noFrameBody, Partial.empty] using heq₂
        subst hsplit
        -- a whole frame is there, so it is the cipher that refuses it
        obtain ⟨ciphertext, tag, rfl, hct, htag⟩ :
            ∃ ciphertext tag, body = ciphertext ++ tag ∧
              ciphertext.length = readCiphertextBytes frameHeader ∧ tag.length = tagLength :=
          ⟨_, _, (List.take_append_drop (readCiphertextBytes frameHeader) body).symm,
            by rw [List.length_take]; omega, by rw [List.length_drop]; omega⟩
        rw [List.append_assoc, decryptPass_append crypto stream.limits parsedHeader derivedKey hseen
          hfh hct htag hcheck] at h
        simp only [List.take_left' hct, List.drop_left' hct]
        cases hopen : decryptFrame crypto ciphertext tag frameHeader
            (readFrameSequence frameHeader) parsedHeader.algorithm derivedKey
            parsedHeader.bytes with
        | ok restored => rw [hopen] at h; cases h
        | error e' => exact ⟨rfl, fun p hp => by cases hp⟩

/-! ## The rest of the input -/

theorem framedLoop_run_ok {parsedHeader : ParsedHeader} {derivedKey : Bytes} {t t' : DecryptState}
    {rest rest' : Bytes} (hrest : rest ≠ [])
    (h : decryptPass crypto stream.limits parsedHeader derivedKey t rest = .ok (t', rest')) :
    ∃ released, t'.plaintext = t.plaintext ++ released ∧
      (framedLoop crypto stream).run (boundary parsedHeader derivedKey t) rest =
        ⟨released ++ ((framedLoop crypto stream).run (boundary parsedHeader derivedKey t') rest').out,
          ((framedLoop crypto stream).run (boundary parsedHeader derivedKey t') rest').result⟩ := by
  obtain ⟨released, hplain, hpass⟩ := framedPass_boundary_ok crypto stream h
  refine ⟨released, hplain, ?_⟩
  rw [InputLoop.run_of_ne_nil _ _ hrest, framedLoop_body, hpass]
  rfl

theorem framedLoop_run_error {parsedHeader : ParsedHeader} {derivedKey : Bytes} {t : DecryptState}
    {rest : Bytes} {e : JsError} (hrest : rest ≠ [])
    (h : decryptPass crypto stream.limits parsedHeader derivedKey t rest = .error e) :
    ((framedLoop crypto stream).run (boundary parsedHeader derivedKey t) rest).out = [] ∧
      ∀ s, ((framedLoop crypto stream).run (boundary parsedHeader derivedKey t) rest).result
        = .ok s → ∃ e', atEnd s = .error e' := by
  obtain ⟨hout, hresult⟩ := framedPass_boundary_error crypto stream hrest h
  rw [InputLoop.run_of_ne_nil _ _ hrest, framedLoop_body]
  cases hpass : (framedPass crypto stream (boundary parsedHeader derivedKey t) rest).result with
  | error e' =>
    rw [Emit.bind_error hpass]
    exact ⟨hout, fun s hs => by cases hs⟩
  | ok p =>
    obtain ⟨s', rfl, hend⟩ := hresult p hpass
    rw [Emit.bind_ok hpass, hout]
    refine ⟨rfl, fun s hs => ?_⟩
    cases hs
    exact hend

/-- Where the buffer loop goes through, the stream arrives at the same locals and
    has released what the buffer loop has collected. -/
theorem framedLoop_of_ok {parsedHeader : ParsedHeader} {derivedKey : Bytes}
    (t : DecryptState) (rest : Bytes) {t' : DecryptState}
    (h : ((decryptLoop crypto stream.limits parsedHeader derivedKey).run t rest).result = .ok t') :
    ∃ released, t'.plaintext = t.plaintext ++ released ∧
      (framedLoop crypto stream).run (boundary parsedHeader derivedKey t) rest =
        ⟨released, .ok (boundary parsedHeader derivedKey t')⟩ := by
  -- the induction follows the loop of the buffer, frame by frame
  induction t, rest using decryptLoop_induct crypto stream.limits parsedHeader derivedKey with
  | nil t =>
    cases h
    exact ⟨[], (List.append_nil _).symm, rfl⟩
  | error t rest e hrest hpass =>
    rw [decryptLoop_run_error crypto _ _ _ hrest hpass] at h
    cases h
  | ok t rest t₁ rest₁ hrest hpass ih =>
    rw [decryptLoop_run_ok crypto _ _ _ hrest hpass] at h
    obtain ⟨released₁, hplain₁, hstream₁⟩ := framedLoop_run_ok crypto stream hrest hpass
    obtain ⟨released₂, hplain₂, hstream₂⟩ := ih h
    refine ⟨released₁ ++ released₂, by rw [hplain₂, hplain₁, List.append_assoc], ?_⟩
    rw [hstream₁, hstream₂]

/-- Where the buffer loop fails, the stream fails too, or finds at the end that
    its input is incomplete. -/
theorem framedLoop_of_error {parsedHeader : ParsedHeader} {derivedKey : Bytes}
    (t : DecryptState) (rest : Bytes) {e : JsError}
    (h : ((decryptLoop crypto stream.limits parsedHeader derivedKey).run t rest).result = .error e)
    {s : FramedState}
    (hs : ((framedLoop crypto stream).run (boundary parsedHeader derivedKey t) rest).result
      = .ok s) : ∃ e', atEnd s = .error e' := by
  induction t, rest using decryptLoop_induct crypto stream.limits parsedHeader derivedKey with
  | nil t => cases h
  | error t rest e hrest hpass => exact (framedLoop_run_error crypto stream hrest hpass).2 s hs
  | ok t rest t₁ rest₁ hrest hpass ih =>
    rw [decryptLoop_run_ok crypto _ _ _ hrest hpass] at h
    obtain ⟨released₁, -, hstream₁⟩ := framedLoop_run_ok crypto stream hrest hpass
    rw [hstream₁] at hs
    exact ih h hs

/-! ## The whole input -/

/-- Less than a global header is kept, and not enough at the end. -/
theorem run_start_short {input : Bytes} (h : input.length < globalHeaderLength) :
    ∃ s, (framedLoop crypto stream).run FramedState.start input = pure s ∧
      ∃ e, atEnd s = .error e := by
  cases input with
  | nil => exact ⟨_, rfl, _, rfl⟩
  | cons x xs =>
    have hfill := Partial.fill_empty_more (by decide) h
    refine ⟨{ FramedState.start with stage := .globalHeader ⟨x :: xs, h⟩ }, ?_, _, rfl⟩
    · rw [InputLoop.run_cons, framedLoop_body]
      simp only [framedPass, FramedState.start, Bool.false_eq_true, if_false, hfill, pure_bind]
      rfl

/-- A global header is parsed, and the loop goes on at the first frame. -/
theorem run_start {header : Bytes} (hlen : header.length = globalHeaderLength) (rest : Bytes) :
    (framedLoop crypto stream).run FramedState.start (header ++ rest) =
      Emit.ofExcept (parseHeader header stream.limits) >>= fun parsedHeader =>
        (framedLoop crypto stream).run
          (boundary parsedHeader (deriveKey crypto stream.key parsedHeader) DecryptState.init)
          rest := by
  have hfill := Partial.fill_empty_append (by decide : 0 < globalHeaderLength) hlen rest
  have hne : header ++ rest ≠ [] := by
    intro hnil
    have := congrArg List.length hnil
    simp [hlen, globalHeaderLength] at this
  rw [InputLoop.run_of_ne_nil _ _ hne, framedLoop_body]
  simp only [framedPass, FramedState.start, Bool.false_eq_true, if_false, hfill, bind_assoc]
  rfl

/-- `consumeFramed` over all of a packet that `decryptBuffer` accepts. -/
theorem run_of_decryptFramed_ok {input plaintext : Bytes}
    (h : decryptFramed crypto input stream.key stream.limits = .ok plaintext) :
    ∃ released s, (framedLoop crypto stream).run FramedState.start input = ⟨released, .ok s⟩ ∧
      atEnd s = .ok () ∧ released.flatten = plaintext := by
  by_cases hshort : input.length < globalHeaderLength
  · simp [decryptFramed, hshort, throw, throwThe, MonadExceptOf.throw, bind, Except.bind] at h
  obtain ⟨header, rest, rfl, hlen⟩ : ∃ header rest, input = header ++ rest ∧
      header.length = globalHeaderLength :=
    ⟨_, _, (List.take_append_drop globalHeaderLength input).symm, by
      rw [List.length_take]; omega⟩
  rw [decryptFramed_append crypto hlen] at h
  rw [run_start crypto stream hlen]
  cases hparse : parseHeader header stream.limits with
  | error e => rw [hparse] at h; cases h
  | ok parsedHeader =>
  rw [hparse] at h
  cases hrun : ((decryptLoop crypto stream.limits parsedHeader
      (deriveKey crypto stream.key parsedHeader)).run DecryptState.init rest).result with
  | error e => simp [hrun, bind, Except.bind] at h
  | ok t =>
  simp only [hrun, bind, Except.bind] at h
  obtain ⟨released, hplain, hstream⟩ := framedLoop_of_ok crypto stream DecryptState.init rest hrun
  -- the buffer joins what the stream has released
  have hcount := decryptLoop_plaintextBytes crypto _ _ _ DecryptState.init rest hrun rfl
  -- it has seen a final frame, so the stream has
  have hfinal : t.finalSeen = true := by
    cases hseen : t.finalSeen with
    | true => rfl
    | false => simp [hseen] at h
  rw [if_neg (by simp [hfinal]), bufferConcat_eq_flatten hcount.symm, hplain] at h
  refine ⟨released, boundary parsedHeader (deriveKey crypto stream.key parsedHeader) t, ?_, ?_,
    Except.ok.inj h⟩
  · rw [Emit.ofExcept_ok, pure_bind, hstream]
  · rw [atEnd_boundary, if_neg (by simp [hfinal])]

/-- `consumeFramed` over all of a packet that `decryptBuffer` refuses. -/
theorem run_of_decryptFramed_error {input : Bytes} {e : JsError}
    (h : decryptFramed crypto input stream.key stream.limits = .error e) {s : FramedState}
    (hs : ((framedLoop crypto stream).run FramedState.start input).result = .ok s) :
    ∃ e', atEnd s = .error e' := by
  by_cases hshort : input.length < globalHeaderLength
  · obtain ⟨s', hrun, hend⟩ := run_start_short crypto stream hshort
    rw [hrun] at hs
    cases hs
    exact hend
  obtain ⟨header, rest, rfl, hlen⟩ : ∃ header rest, input = header ++ rest ∧
      header.length = globalHeaderLength :=
    ⟨_, _, (List.take_append_drop globalHeaderLength input).symm, by
      rw [List.length_take]; omega⟩
  rw [decryptFramed_append crypto hlen] at h
  rw [run_start crypto stream hlen] at hs
  cases hparse : parseHeader header stream.limits with
  | error e => rw [hparse] at hs; cases hs
  | ok parsedHeader =>
  rw [hparse] at h hs
  rw [Emit.ofExcept_ok, pure_bind] at hs
  cases hrun : ((decryptLoop crypto stream.limits parsedHeader
      (deriveKey crypto stream.key parsedHeader)).run DecryptState.init rest).result with
  | error e => exact framedLoop_of_error crypto stream DecryptState.init rest hrun hs
  | ok t =>
  -- all frames are good, so it is the final one that is missing
  obtain ⟨released, -, hstream⟩ := framedLoop_of_ok crypto stream DecryptState.init rest hrun
  rw [hstream] at hs
  cases hs
  rw [atEnd_boundary]
  simp only [hrun, bind, Except.bind] at h
  split at h
  · rename_i hseen
    exact ⟨_, if_pos hseen⟩
  · cases h

end DecryptionStream
end PipeX.EncryptionFormat
