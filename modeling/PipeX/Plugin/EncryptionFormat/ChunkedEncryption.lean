/-
  PipeX.Plugin.EncryptionFormat.ChunkedEncryption

  The encryption stream writes, in pieces, what `encryptBuffer` returns.

  * `copyLoop_splits` — the pending buffer makes the copy loop blind to where a
    chunk ends.
  * `copyLoop_flush` — the copy loop over the whole message, flushed, pushes the
    frames of the buffer path, by induction along `encryptLoop`.
  * `encryptStream_delivers` — the limit checks, made per chunk on the total so
    far, refuse exactly the messages that the one check on the total refuses.
-/
import PipeX.Plugin.EncryptionFormat.Packet
import PipeX.Plugin.EncryptionFormat.Stream

namespace PipeX.EncryptionFormat

open Chunked Aead

namespace EncryptionStream

variable (crypto : Crypto) (stream : EncryptionStream)

/-! ## The copy loop -/

@[simp] theorem copyLoop_body : (copyLoop crypto stream).body = copyPass crypto stream := rfl

theorem copyLoop_splits : (copyLoop crypto stream).Splits := by
  intro s a b _ _
  simp only [copyLoop_body]
  cases hfill : s.pending.fill a with
  | more p =>
    simp only [copyPass, hfill, Partial.fill_append_of_more b hfill, pure_bind,
      InputLoop.resume_more, copyLoop_body]
  | full plaintext rest =>
    simp only [copyPass, hfill, Partial.fill_append_of_full b hfill, bind_assoc, pure_bind,
      InputLoop.resume_done]

/-- The loop of the buffer path with this stream's parameters. -/
def bufferLoop : InputLoop Nat UInt8 SealedFrame JsError :=
  encryptLoop crypto stream.algorithm stream.frameSizeBytes stream.derivedKey stream.header

/-- The end of `encryptFrames`. -/
def pushFinal (sequence : Nat) : Emit SealedFrame JsError Unit :=
  Emit.ofExcept (encryptFrame crypto [] finalFrame sequence stream.algorithm stream.derivedKey
    stream.header) >>= Emit.push

/-- Below the frame limit a data frame is sealed as the buffer path seals it. -/
theorem pushDataFrame_of_lt (plaintext : Bytes) {dataFrames : Nat} (sequence : Nat)
    (h : dataFrames < stream.limits.maxFrames) :
    pushDataFrame crypto stream plaintext dataFrames sequence =
      Emit.ofExcept (encryptFrame crypto plaintext dataFrame sequence stream.algorithm
        stream.derivedKey stream.header) >>= fun frame => Emit.push (.frame frame) := by
  have hlim : ¬ dataFrames + 1 > stream.limits.maxFrames := by omega
  simp only [pushDataFrame, if_neg hlim, Emit.liftM_eq]

/-- One pass of the buffer path, and the rest of it. -/
theorem bufferLoop_run (sequence : Nat) {rest : Bytes} (hne : rest ≠ []) :
    (bufferLoop crypto stream).run sequence rest =
      Emit.ofExcept (encryptFrame crypto (rest.take stream.frameSizeBytes.val) dataFrame sequence
        stream.algorithm stream.derivedKey stream.header) >>= fun frame =>
          Emit.push frame >>= fun _ =>
            (bufferLoop crypto stream).run (sequence + 1)
              (rest.drop stream.frameSizeBytes.val) := by
  rw [InputLoop.run_of_ne_nil _ sequence hne]
  change encryptPass crypto stream.algorithm stream.frameSizeBytes stream.derivedKey stream.header
    sequence rest >>= _ = _
  simp only [encryptPass, Emit.liftM_eq, bind_assoc, pure_bind, InputLoop.next_done]

/-- Nothing is pending: only the final frame is left. -/
theorem flushFrames_noPending (sequence : Nat) :
    flushFrames crypto stream ⟨stream.noPending, sequence, sequence⟩ =
      (pushFinal crypto stream sequence).mapOut .frame := by
  have hempty : ¬ stream.noPending.filled.length > 0 := Nat.lt_irrefl 0
  simp only [flushFrames, if_neg hempty, pure_bind, pushFinal, Emit.mapOut_bind,
    Emit.mapOut_ofExcept, Emit.mapOut_push, Emit.liftM_eq]

/-- The last data frame, short of the frame size. -/
theorem flushFrames_pending (pending : Partial UInt8 stream.frameSizeBytes.val)
    (hne : pending.filled ≠ []) {sequence : Nat} (h : sequence < stream.limits.maxFrames) :
    flushFrames crypto stream ⟨pending, sequence, sequence⟩ =
      (Emit.ofExcept (encryptFrame crypto pending.filled dataFrame sequence stream.algorithm
        stream.derivedKey stream.header) >>= fun frame =>
          Emit.push frame >>= fun _ => pushFinal crypto stream (sequence + 1)).mapOut
        .frame := by
  have hpos : pending.filled.length > 0 := List.length_pos_iff.mpr hne
  simp only [flushFrames, if_pos hpos, pushDataFrame_of_lt crypto stream _ _ h, pushFinal,
    bind_assoc, pure_bind, Emit.mapOut_bind, Emit.mapOut_ofExcept, Emit.mapOut_push, Emit.liftM_eq]

/-- The frame counter never reaches the limit where the announced count is under
    it, and stream and buffer path seal the same frames. -/
theorem copyLoop_flush (sequence : Nat) (rest : Bytes)
    (h : sequence + dataFrameCount rest.length stream.frameSizeBytes.val ≤
      stream.limits.maxFrames) :
    (copyLoop crypto stream).run ⟨stream.noPending, sequence, sequence⟩ rest >>=
        flushFrames crypto stream =
      ((bufferLoop crypto stream).run sequence rest >>= pushFinal crypto stream).mapOut
        .frame := by
  induction sequence, rest using (bufferLoop crypto stream).induct with
  | nil sequence =>
    rw [InputLoop.run_nil, InputLoop.run_nil, pure_bind, pure_bind, flushFrames_noPending]
  | pass sequence rest hne ih =>
    have hpos := List.length_pos_iff.mpr hne
    rw [bufferLoop_run crypto stream sequence hne, InputLoop.run_of_ne_nil _ _ hne, copyLoop_body]
    by_cases hshort : rest.length < stream.frameSizeBytes.val
    · -- less than a frame: it stays pending, and `flush` seals it
      rw [dataFrameCount_of_le hpos (Nat.le_of_lt hshort)] at h
      have hfill := Partial.fill_empty_more stream.frameSizeBytes.property.1 hshort
      simp only [copyPass, noPending, hfill, pure_bind, InputLoop.next_more]
      rw [flushFrames_pending crypto stream ⟨rest, hshort⟩ hne (by omega),
        List.take_of_length_le (Nat.le_of_lt hshort), List.drop_of_length_le (Nat.le_of_lt hshort)]
      simp only [InputLoop.run_nil, bind_assoc, pure_bind]
    · -- a full frame: both seal it and go on behind it
      have hfull : stream.frameSizeBytes.val ≤ rest.length := Nat.le_of_not_lt hshort
      have hcount : dataFrameCount rest.length stream.frameSizeBytes.val =
          dataFrameCount (rest.length - stream.frameSizeBytes.val) stream.frameSizeBytes.val + 1 := by
        rw [← dataFrameCount_add stream.frameSizeBytes.property.1, Nat.add_sub_cancel' hfull]
      have hfill := Partial.fill_empty_full stream.frameSizeBytes.property.1 hfull
      simp only [copyPass, noPending, hfill]
      rw [pushDataFrame_of_lt crypto stream _ _ (by omega)]
      cases hframe : encryptFrame crypto (rest.take stream.frameSizeBytes.val) dataFrame sequence
          stream.algorithm stream.derivedKey stream.header with
      | error e => rfl
      | ok frame =>
        have ih := ih (sequence + 1) (rest.drop stream.frameSizeBytes.val) ?_ ?_
        · simp only [noPending] at ih
          simp only [Emit.ofExcept_ok, pure_bind, bind_assoc, InputLoop.next_done,
            Emit.mapOut_bind, Emit.mapOut_push] at ih ⊢
          rw [ih]
        · exact congrArg Emit.result (encryptPass_ok hframe)
        · rw [List.length_drop]
          omega

/-! ## All chunks together -/

/-- `transform` on a total that fits. -/
theorem transform_of_fits (s : EncryptionState stream.frameSizeBytes.val) (input : Bytes)
    (h : Fits stream.limits stream.frameSizeBytes (s.inputBytes + input.length)) :
    transform crypto stream s input =
      (if s.headerSent = false then Emit.push (.header stream.header) else pure ()) >>= fun _ =>
        (copyLoop crypto stream).run s.frames input >>= fun frames =>
          pure ⟨s.inputBytes + input.length, true, frames⟩ := by
  have hinput : ¬ (input.length : Int) > (stream.limits.maxInputBytes : Int) - s.inputBytes := by
    have := h.input
    omega
  simp only [transform, if_neg hinput, if_neg (Nat.not_lt_of_le h.frames),
    if_neg (Nat.not_lt_of_le h.output)]
  split <;> rfl

/-- A call that went through found that its total fits. -/
theorem transform_fits {s s' : EncryptionState stream.frameSizeBytes.val} {input : Bytes}
    (h : (transform crypto stream s input).result = .ok s') :
    s'.inputBytes = s.inputBytes + input.length ∧
      Fits stream.limits stream.frameSizeBytes s'.inputBytes := by
  by_cases hinput : (input.length : Int) > (stream.limits.maxInputBytes : Int) - s.inputBytes
  · simp only [transform, if_pos hinput, Emit.fail_bind] at h
    cases h
  by_cases hframes : dataFrameCount (s.inputBytes + input.length) stream.frameSizeBytes.val >
      stream.limits.maxFrames
  · simp only [transform, if_neg hinput, if_pos hframes, Emit.fail_bind] at h
    cases h
  by_cases houtput : encodedLength (s.inputBytes + input.length) stream.frameSizeBytes.val >
      stream.limits.maxOutputBytes
  · simp only [transform, if_neg hinput, if_neg hframes, if_pos houtput, Emit.fail_bind] at h
    cases h
  have hfits : Fits stream.limits stream.frameSizeBytes (s.inputBytes + input.length) :=
    ⟨by omega, Nat.le_of_not_lt hframes, Nat.le_of_not_lt houtput⟩
  rw [transform_of_fits crypto stream s input hfits] at h
  obtain ⟨-, -, h, -⟩ := Emit.bind_eq_ok h
  obtain ⟨frames, -, h, -⟩ := Emit.bind_eq_ok h
  cases h
  exact ⟨rfl, hfits⟩

theorem feed_fits {s s' : EncryptionState stream.frameSizeBytes.val} {chunks : List Bytes}
    (hs : Fits stream.limits stream.frameSizeBytes s.inputBytes)
    (h : ((writer crypto stream).feed s chunks).result = .ok s') :
    s'.inputBytes = s.inputBytes + chunks.flatten.length ∧
      Fits stream.limits stream.frameSizeBytes s'.inputBytes := by
  induction chunks generalizing s with
  | nil => cases h; exact ⟨rfl, hs⟩
  | cons c cs ih =>
    rw [Transform.feed_cons] at h
    obtain ⟨s₁, h₁, h₂, -⟩ := Emit.bind_eq_ok h
    obtain ⟨hcount, hfits⟩ := transform_fits crypto stream h₁
    obtain ⟨hcount', hfits'⟩ := ih hfits h₂
    refine ⟨?_, hfits'⟩
    rw [hcount', hcount, List.flatten_cons, List.length_append, Nat.add_assoc]

/-- Behind the header, all chunks and the end of the stream are one run of the
    copy loop and its flush. -/
theorem complete_headerSent (s : EncryptionState stream.frameSizeBytes.val)
    (hsent : s.headerSent = true) (chunks : List Bytes)
    (h : Fits stream.limits stream.frameSizeBytes (s.inputBytes + chunks.flatten.length)) :
    (writer crypto stream).complete s chunks =
      (copyLoop crypto stream).run s.frames chunks.flatten >>= flushFrames crypto stream := by
  induction chunks generalizing s with
  | nil =>
    change flush crypto stream s = flushFrames crypto stream s.frames
    simp only [flush, hsent, Bool.true_eq_false, if_false]
  | cons c cs ih =>
    rw [List.flatten_cons, List.length_append, ← Nat.add_assoc] at h
    have hfirst := transform_of_fits crypto stream s c (h.mono (Nat.le_add_right _ _))
    rw [hsent, if_neg (by decide), pure_bind] at hfirst
    rw [Transform.complete_cons]
    change transform crypto stream s c >>= _ = _
    rw [hfirst, bind_assoc, List.flatten_cons, (copyLoop_splits crypto stream).run_append,
      bind_assoc]
    congr 1
    funext frames
    rw [pure_bind]
    exact ih _ rfl h

/-- From the start, the header comes first: with the first chunk, or at the end
    of a stream without chunks. -/
theorem complete_start (chunks : List Bytes)
    (h : Fits stream.limits stream.frameSizeBytes chunks.flatten.length) :
    (writer crypto stream).complete stream.start chunks =
      Emit.push (.header stream.header) >>= fun _ =>
        (copyLoop crypto stream).run ⟨stream.noPending, 0, 0⟩ chunks.flatten >>=
          flushFrames crypto stream := by
  cases chunks with
  | nil => rfl
  | cons c cs =>
    have htotal : Fits stream.limits stream.frameSizeBytes
        (c.length + cs.flatten.length) := by
      rwa [List.flatten_cons, List.length_append] at h
    have hfirst := transform_of_fits crypto stream stream.start c
      (by simpa [start] using htotal.mono (Nat.le_add_right _ _))
    rw [if_pos (show stream.start.headerSent = false from rfl)] at hfirst
    rw [Transform.complete_cons]
    change transform crypto stream stream.start c >>= _ = _
    rw [hfirst, bind_assoc, List.flatten_cons, (copyLoop_splits crypto stream).run_append]
    congr 1
    funext _
    rw [bind_assoc, bind_assoc]
    congr 1
    funext frames
    rw [pure_bind]
    exact complete_headerSent crypto stream _ rfl cs (by simpa [start] using htotal)

/-- A total that does not fit is refused by some call of `transform`. -/
theorem not_succeeds_of_not_fits (chunks : List Bytes)
    (hzero : Fits stream.limits stream.frameSizeBytes 0)
    (h : ¬ Fits stream.limits stream.frameSizeBytes chunks.flatten.length) :
    ¬ ((machine crypto stream).complete stream.start chunks).Succeeds := by
  rw [machine, Transform.complete_mapOut]
  rintro ⟨_, hsucc⟩
  rw [Emit.mapOut_result] at hsucc
  obtain ⟨s, hfeed, -⟩ := Emit.bind_eq_ok hsucc
  have hstart : Fits stream.limits stream.frameSizeBytes stream.start.inputBytes := hzero
  obtain ⟨hcount, hfits⟩ := feed_fits crypto stream hstart hfeed
  have htotal : s.inputBytes = chunks.flatten.length := by
    rw [hcount]
    exact Nat.zero_add _
  exact h (htotal ▸ hfits)

end EncryptionStream

/-! ## Buffer and stream -/

/-- Construction fails, or fixes the frame size, the header and the key of the
    buffer path. -/
theorem createEncryptionStream_ok (crypto : Crypto) (salt : Salt)
    {options : EncryptionFormatOptions} {contextLimits : Option EngineLimits}
    {frameSizeBytes : FrameSize} (hkey : assertEncryptionKey options.key = .ok ())
    (hsize : resolveFrameSize options (limitsFor contextLimits) = .ok frameSizeBytes)
    (hzero : Fits (limitsFor contextLimits) frameSizeBytes 0) :
    createEncryptionStream crypto salt options contextLimits =
      .ok ⟨options.algorithm, limitsFor contextLimits, frameSizeBytes,
        buildHeader options.algorithm frameSizeBytes salt,
        deriveKey crypto options.key (packetHeader options.algorithm frameSizeBytes salt)⟩ := by
  have hparse := parseHeader_buildHeader options.algorithm frameSizeBytes salt
    (resolveFrameSize_le hsize)
  simp only [createEncryptionStream, hkey, hsize, hparse, bind, Except.bind, pure, Except.pure,
    if_neg (Nat.not_lt_of_le hzero.output)]

/-- A stream that was constructed passed the checks that do not need a message. -/
theorem createEncryptionStream_checks {crypto : Crypto} {salt : Salt}
    {options : EncryptionFormatOptions} {contextLimits : Option EngineLimits}
    {stream : EncryptionStream}
    (h : createEncryptionStream crypto salt options contextLimits = .ok stream) :
    assertEncryptionKey options.key = .ok () ∧
      ∃ frameSizeBytes, resolveFrameSize options (limitsFor contextLimits) = .ok frameSizeBytes ∧
        Fits (limitsFor contextLimits) frameSizeBytes 0 := by
  simp only [createEncryptionStream, bind, Except.bind, pure, Except.pure, throw, throwThe,
    MonadExceptOf.throw] at h
  split at h
  · cases h
  rename_i hkey
  split at h
  · cases h
  rename_i frameSizeBytes hsize
  split at h
  · cases h
  rename_i houtput
  exact ⟨hkey, frameSizeBytes, hsize, Nat.zero_le _, Nat.zero_le _, Nat.le_of_not_lt houtput⟩

/-- On a message that fits, the stream pushes the header and then, one by one, the
    frames of the buffer path, and fails where that fails. -/
theorem encryptStream_of_fits (crypto : Crypto) (salt : Salt) {options : EncryptionFormatOptions}
    {contextLimits : Option EngineLimits} {frameSizeBytes : FrameSize} (chunks : List Bytes)
    (hkey : assertEncryptionKey options.key = .ok ())
    (hsize : resolveFrameSize options (limitsFor contextLimits) = .ok frameSizeBytes)
    (hfits : Fits (limitsFor contextLimits) frameSizeBytes chunks.flatten.length) :
    encryptStream crypto salt options contextLimits chunks =
      Emit.push (buildHeader options.algorithm frameSizeBytes salt) >>= fun _ =>
        (encryptFrames crypto options.algorithm frameSizeBytes
          (deriveKey crypto options.key (packetHeader options.algorithm frameSizeBytes salt))
          (buildHeader options.algorithm frameSizeBytes salt) chunks.flatten).mapOut
            SealedFrame.bytes := by
  have hcreate := createEncryptionStream_ok crypto salt hkey hsize
    (hfits.mono (Nat.zero_le _))
  rw [encryptStream, hcreate, Emit.liftM_eq, Emit.ofExcept_ok, pure_bind,
    EncryptionStream.machine, Transform.complete_mapOut,
    EncryptionStream.complete_start crypto _ chunks hfits, Emit.mapOut_bind]
  congr 1
  funext _
  rw [EncryptionStream.copyLoop_flush crypto _ 0 chunks.flatten
    (by rw [Nat.zero_add]; exact hfits.frames), Emit.mapOut_mapOut]
  rfl

/-- The stream pushes the header and the frames of the packet that the buffer path
    builds, and goes through exactly when that one does. -/
theorem encryptStream_packet (crypto : Crypto) (salt : Salt) (options : EncryptionFormatOptions)
    (contextLimits : Option EngineLimits) (chunks : List Bytes) :
    (∃ packet, encryptPacket crypto salt chunks.flatten options contextLimits = .ok packet ∧
      encryptStream crypto salt options contextLimits chunks =
        ⟨packet.header :: packet.frames.map SealedFrame.bytes, .ok ()⟩) ∨
    ((∃ e, encryptPacket crypto salt chunks.flatten options contextLimits = .error e) ∧
      ¬ (encryptStream crypto salt options contextLimits chunks).Succeeds) := by
  by_cases hchecks : assertEncryptionKey options.key = .ok () ∧
      ∃ frameSizeBytes, resolveFrameSize options (limitsFor contextLimits) = .ok frameSizeBytes ∧
        Fits (limitsFor contextLimits) frameSizeBytes chunks.flatten.length
  · obtain ⟨hkey, frameSizeBytes, hsize, hfits⟩ := hchecks
    rw [encryptPacket_of_fits crypto salt hkey hsize hfits,
      encryptStream_of_fits crypto salt chunks hkey hsize hfits]
    -- the checks pass on both sides, so the frames decide
    cases hframes : (encryptFrames crypto options.algorithm frameSizeBytes
        (deriveKey crypto options.key (packetHeader options.algorithm frameSizeBytes salt))
        (buildHeader options.algorithm frameSizeBytes salt) chunks.flatten).result with
    | ok u => exact .inl ⟨_, rfl, by rw [Emit.bind_ok rfl]; simp [hframes]⟩
    | error e =>
      refine .inr ⟨⟨e, rfl⟩, ?_⟩
      rintro ⟨_, hsucc⟩
      rw [Emit.bind_ok rfl] at hsucc
      simp [hframes] at hsucc
  · refine .inr ⟨?_, fun hsucc => ?_⟩
    · cases hpacket : encryptPacket crypto salt chunks.flatten options contextLimits with
      | error e => exact ⟨e, rfl⟩
      -- a buffer that is encrypted has passed them
      | ok packet => exact absurd (encryptPacket_checks hpacket) hchecks
    · -- the stream checks less before its first chunk, and the rest per chunk
      obtain ⟨stream, hcreate, hsucc⟩ := (Emit.succeeds_bind _ _).mp hsucc
      obtain ⟨hkey, frameSizeBytes, hsize, hzero⟩ := createEncryptionStream_checks hcreate
      have hstream := createEncryptionStream_ok crypto salt hkey hsize hzero
      rw [hstream] at hcreate
      cases hcreate
      exact EncryptionStream.not_succeeds_of_not_fits crypto _ chunks hzero
        (fun hfits => hchecks ⟨hkey, frameSizeBytes, hsize, hfits⟩) hsucc

/-- Stream encryption delivers `encryptBuffer` piece by piece, however its input
    is cut; the frames it pushes are numbered from 0, use no nonce twice under the
    derived key, and are full up to the last data frame. -/
theorem encryptStream_delivers (crypto : Crypto) (salt : Salt) (options : EncryptionFormatOptions)
    (contextLimits : Option EngineLimits) (chunks : List Bytes) :
    (encryptStream crypto salt options contextLimits chunks).Delivers
        (encryptBuffer crypto salt chunks.flatten options contextLimits) ∧
      ((encryptStream crypto salt options contextLimits chunks).Succeeds →
        ∃ frameSizeBytes header frames,
          resolveFrameSize options (limitsFor contextLimits) = .ok frameSizeBytes ∧
          (encryptStream crypto salt options contextLimits chunks).out =
            header :: frames.map SealedFrame.bytes ∧
          PacketFrames crypto options.algorithm frameSizeBytes
            (deriveKey crypto options.key (packetHeader options.algorithm frameSizeBytes salt))
            header frames) := by
  rw [encryptBuffer_eq]
  rcases encryptStream_packet crypto salt options contextLimits chunks with
    ⟨packet, hpacket, hstream⟩ | ⟨⟨e, hpacket⟩, hfail⟩
  · rw [hpacket, hstream]
    refine ⟨Emit.delivers_ok rfl rfl, fun _ => ?_⟩
    obtain ⟨frameSizeBytes, hsize, hframes⟩ := encryptPacket_frames hpacket
    exact ⟨frameSizeBytes, _, _, hsize, rfl, hframes⟩
  · rw [hpacket]
    exact ⟨Emit.delivers_error hfail e, fun hsucc => absurd hsucc hfail⟩

end PipeX.EncryptionFormat
