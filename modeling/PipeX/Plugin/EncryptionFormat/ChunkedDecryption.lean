/-
  PipeX.Plugin.EncryptionFormat.ChunkedDecryption

  What a decryption stream does with all its chunks together, and the agreement
  with `decryptBuffer` that follows.

  * `feed_framed`, `feed_legacy` — the calls of `transform` over any chunks come
    to one call over their concatenation.
  * `complete_framed_delivers`, `decryptStream_delivers` — the stream accepts what
    `decryptBuffer` accepts, and releases the same plaintext.
-/
import PipeX.Plugin.EncryptionFormat.StreamDecryption

namespace PipeX.EncryptionFormat

open Chunked Aead

namespace DecryptionStream

variable (crypto : Crypto) (stream : DecryptionStream)

/-! ## All chunks together -/

/-- The input limit lets through exactly what fits under it. -/
theorem transform_of_le (s : DecryptionState) (input : Bytes)
    (h : s.totalInput + input.length ≤ stream.limits.maxInputBytes) :
    ¬ (input.length : Int) > (stream.limits.maxInputBytes : Int) - s.totalInput := by
  omega

/-- `transform` on a framed stream. -/
theorem transform_framed (s : DecryptionState) {input : Bytes} (hformat : s.format = .framed)
    (h : s.totalInput + input.length ≤ stream.limits.maxInputBytes) :
    transform crypto stream s input =
      (framedLoop crypto stream).run s.framed input >>= fun framed =>
        pure { s with totalInput := s.totalInput + input.length, framed } := by
  obtain ⟨format, totalInput, framed, legacyChunks⟩ := s
  cases hformat
  simp only [transform, if_neg (transform_of_le stream _ _ h), pure_bind]
  cases input with
  | nil => rfl
  | cons x xs => rfl

/-- `transform` on the first byte, where that is the magic's. -/
theorem transform_unknown_framed (s : DecryptionState) {x : UInt8} {xs : Bytes}
    (hformat : s.format = .unknown) (hx : some x = magic.head?)
    (h : s.totalInput + (x :: xs).length ≤ stream.limits.maxInputBytes) :
    transform crypto stream s (x :: xs) =
      (framedLoop crypto stream).run s.framed (x :: xs) >>= fun framed =>
        pure { s with totalInput := s.totalInput + (x :: xs).length, format := .framed, framed } := by
  obtain ⟨format, totalInput, framed, legacyChunks⟩ := s
  cases hformat
  simp only [transform, if_neg (transform_of_le stream _ _ h), pure_bind, List.head?_cons, hx]
  rfl

/-- `transform` on an empty chunk. -/
theorem transform_nil (s : DecryptionState) (h : s.totalInput ≤ stream.limits.maxInputBytes) :
    transform crypto stream s [] = pure s := by
  simp only [transform, if_neg (transform_of_le stream s [] h), pure_bind]
  rfl

/-- `transform` on a legacy packet collects its chunks. -/
theorem transform_legacy (s : DecryptionState) (input : Bytes) (hformat : s.format = .legacy)
    (h : s.totalInput + input.length ≤ stream.limits.maxInputBytes) :
    ∃ legacyChunks, legacyChunks.flatten = s.legacyChunks.flatten ++ input ∧
      transform crypto stream s input =
        pure { s with totalInput := s.totalInput + input.length, legacyChunks } := by
  obtain ⟨format, totalInput, framed, legacyChunks⟩ := s
  cases hformat
  simp only [transform, if_neg (transform_of_le stream _ _ h), pure_bind]
  cases input with
  | nil => exact ⟨legacyChunks, (List.append_nil _).symm, rfl⟩
  | cons x xs =>
    refine ⟨legacyChunks ++ [x :: xs], ?_, rfl⟩
    simp

/-- The legacy gate, on the first byte of the input. -/
theorem transform_unknown_legacy (s : DecryptionState) {x : UInt8} {xs : Bytes}
    (hformat : s.format = .unknown) (hx : some x ≠ magic.head?)
    (h : s.totalInput + (x :: xs).length ≤ stream.limits.maxInputBytes) :
    transform crypto stream s (x :: xs) =
      if stream.allowLegacyDecrypt = some false then
        Emit.fail (plainError "[PipeX] Decryption failed: legacy format disabled")
      else
        pure { s with
          totalInput := s.totalInput + (x :: xs).length
          format := .legacy
          legacyChunks := s.legacyChunks ++ [x :: xs] } := by
  obtain ⟨format, totalInput, framed, legacyChunks⟩ := s
  cases hformat
  simp only [transform, if_neg (transform_of_le stream _ _ h), pure_bind, List.head?_cons, if_neg hx]
  -- only an explicit `false` closes the gate here
  by_cases hgate : stream.allowLegacyDecrypt = some false
  · simp only [hgate]
    rfl
  · simp only [if_neg hgate]
    rfl

/-- Every call that goes through has counted its chunk under the input limit. -/
theorem transform_totalInput {s s' : DecryptionState} {input : Bytes}
    (h : (transform crypto stream s input).result = .ok s') :
    s'.totalInput = s.totalInput + input.length ∧
      s'.totalInput ≤ stream.limits.maxInputBytes := by
  by_cases hlim : (input.length : Int) > (stream.limits.maxInputBytes : Int) - s.totalInput
  · simp only [transform, if_pos hlim, Emit.fail_bind] at h
    cases h
  · have hle : s.totalInput + input.length ≤ stream.limits.maxInputBytes := by omega
    -- behind the check, each format counts the whole chunk
    suffices heq : s'.totalInput = s.totalInput + input.length from ⟨heq, heq ▸ hle⟩
    cases hformat : s.format with
    | framed =>
      rw [transform_framed crypto stream s hformat hle] at h
      obtain ⟨framed, -, h, -⟩ := Emit.bind_eq_ok h
      cases h
      rfl
    | legacy =>
      obtain ⟨legacyChunks, -, heq⟩ := transform_legacy crypto stream s input hformat hle
      rw [heq] at h
      cases h
      rfl
    | unknown =>
      cases input with
      | nil =>
        rw [transform_nil crypto stream s hle] at h
        cases h
        rfl
      | cons x xs =>
        by_cases hx : some x = magic.head?
        · rw [transform_unknown_framed crypto stream s hformat hx hle] at h
          obtain ⟨framed, -, h, -⟩ := Emit.bind_eq_ok h
          cases h
          rfl
        · rw [transform_unknown_legacy crypto stream s hformat hx hle] at h
          split at h
          · cases h
          · cases h
            rfl

theorem feed_totalInput {s s' : DecryptionState} {chunks : List Bytes}
    (hs : s.totalInput ≤ stream.limits.maxInputBytes)
    (h : ((machine crypto stream).feed s chunks).result = .ok s') :
    s'.totalInput = s.totalInput + chunks.flatten.length ∧
      s'.totalInput ≤ stream.limits.maxInputBytes := by
  induction chunks generalizing s with
  | nil => cases h; exact ⟨rfl, hs⟩
  | cons c cs ih =>
    rw [Transform.feed_cons] at h
    obtain ⟨s₁, h₁, h₂, -⟩ := Emit.bind_eq_ok h
    obtain ⟨hcount, hle⟩ := transform_totalInput crypto stream h₁
    obtain ⟨hcount', hle'⟩ := ih hle h₂
    refine ⟨?_, hle'⟩
    rw [hcount', hcount, List.flatten_cons, List.length_append, Nat.add_assoc]

/-- A framed stream that is fed any chunks is one run of the loop over all of
    them. -/
theorem feed_framed (s : DecryptionState) (hformat : s.format = .framed) (chunks : List Bytes)
    (h : s.totalInput + chunks.flatten.length ≤ stream.limits.maxInputBytes) :
    (machine crypto stream).feed s chunks =
      (framedLoop crypto stream).run s.framed chunks.flatten >>= fun framed =>
        pure { s with totalInput := s.totalInput + chunks.flatten.length, framed } := by
  -- the loop over all chunks is the loop over their concatenation
  induction chunks generalizing s with
  | nil => rfl
  | cons c cs ih =>
    rw [List.flatten_cons, List.length_append] at h
    rw [Transform.feed_cons, List.flatten_cons, (framedLoop_splits crypto stream).run_append,
      List.length_append]
    change transform crypto stream s c >>= _ = _
    rw [transform_framed crypto stream s hformat (by omega), bind_assoc, bind_assoc]
    congr 1
    funext framed
    rw [pure_bind, ih { s with totalInput := s.totalInput + c.length, framed } hformat
      (by simp only; omega)]
    simp only [Nat.add_assoc]

/-- The same from the start, where the first byte is the magic's. -/
theorem feed_unknown_framed (s : DecryptionState) (hformat : s.format = .unknown)
    (chunks : List Bytes) (hhead : chunks.flatten.head? = magic.head?)
    (h : s.totalInput + chunks.flatten.length ≤ stream.limits.maxInputBytes) :
    (machine crypto stream).feed s chunks =
      (framedLoop crypto stream).run s.framed chunks.flatten >>= fun framed =>
        pure { s with
          totalInput := s.totalInput + chunks.flatten.length
          format := .framed
          framed } := by
  induction chunks with
  | nil => cases hhead
  | cons c cs ih =>
    rw [Transform.feed_cons]
    change transform crypto stream s c >>= _ = _
    cases c with
    | nil =>
      -- an empty chunk does not decide the format
      rw [transform_nil crypto stream s (by omega), pure_bind]
      exact ih hhead h
    | cons x xs =>
      -- the first byte does
      rw [List.flatten_cons, List.length_append] at h
      rw [transform_unknown_framed crypto stream s hformat hhead (by omega), bind_assoc,
        List.flatten_cons, (framedLoop_splits crypto stream).run_append, bind_assoc,
        List.length_append]
      congr 1
      funext framed
      rw [pure_bind, feed_framed crypto stream _ rfl _ (by simp only; omega)]
      simp only [Nat.add_assoc]

/-- A legacy stream collects everything it is fed. -/
theorem feed_legacy (s : DecryptionState) (hformat : s.format = .legacy) (chunks : List Bytes)
    (h : s.totalInput + chunks.flatten.length ≤ stream.limits.maxInputBytes) :
    ∃ legacyChunks, legacyChunks.flatten = s.legacyChunks.flatten ++ chunks.flatten ∧
      (machine crypto stream).feed s chunks =
        pure { s with totalInput := s.totalInput + chunks.flatten.length, legacyChunks } := by
  induction chunks generalizing s with
  | nil => exact ⟨s.legacyChunks, (List.append_nil _).symm, rfl⟩
  | cons c cs ih =>
    rw [List.flatten_cons, List.length_append] at h
    obtain ⟨collected, hcollected, heq⟩ := transform_legacy crypto stream s c hformat
      (by omega)
    obtain ⟨legacyChunks, hlegacy, heq'⟩ :=
      ih { s with totalInput := s.totalInput + c.length, legacyChunks := collected } hformat
        (by simp only; omega)
    -- nothing is decrypted before the end
    refine ⟨legacyChunks, ?_, ?_⟩
    · rw [hlegacy, hcollected, List.flatten_cons, List.append_assoc]
    · rw [Transform.feed_cons]
      change transform crypto stream s c >>= _ = _
      rw [heq, pure_bind, heq', List.flatten_cons, List.length_append]
      simp only [Nat.add_assoc]

/-- The legacy gate over any chunks: closed it lets nothing through, open it
    collects the packet. -/
theorem feed_unknown_legacy (s : DecryptionState) (hformat : s.format = .unknown)
    (chunks : List Bytes) (hne : chunks.flatten ≠ []) (hhead : chunks.flatten.head? ≠ magic.head?)
    (h : s.totalInput + chunks.flatten.length ≤ stream.limits.maxInputBytes) :
    (stream.allowLegacyDecrypt = some false ∧ (machine crypto stream).feed s chunks =
      Emit.fail (plainError "[PipeX] Decryption failed: legacy format disabled")) ∨
    (stream.allowLegacyDecrypt ≠ some false ∧
      ∃ legacyChunks, legacyChunks.flatten = s.legacyChunks.flatten ++ chunks.flatten ∧
        (machine crypto stream).feed s chunks =
          pure { s with
            totalInput := s.totalInput + chunks.flatten.length
            format := .legacy
            legacyChunks }) := by
  induction chunks with
  | nil => exact absurd rfl hne
  | cons c cs ih =>
    rw [Transform.feed_cons]
    change (_ ∧ transform crypto stream s c >>= _ = _) ∨
      (_ ∧ ∃ _, _ ∧ transform crypto stream s c >>= _ = _)
    cases c with
    | nil =>
      simp only [transform_nil crypto stream s (by omega), pure_bind]
      exact ih hne hhead h
    | cons x xs =>
      rw [List.flatten_cons, List.length_append] at h
      rw [transform_unknown_legacy crypto stream s hformat hhead (by omega)]
      by_cases hgate : stream.allowLegacyDecrypt = some false
      · refine .inl ⟨hgate, ?_⟩
        rw [if_pos hgate, Emit.fail_bind]
      · refine .inr ⟨hgate, ?_⟩
        -- from here on the chunks are collected
        obtain ⟨legacyChunks, hlegacy, heq⟩ := feed_legacy crypto stream
          { s with
            totalInput := s.totalInput + (x :: xs).length
            format := .legacy
            legacyChunks := s.legacyChunks ++ [x :: xs] } rfl cs (by simp only; omega)
        refine ⟨legacyChunks, ?_, ?_⟩
        · rw [hlegacy]
          simp
        · rw [if_neg hgate, pure_bind, heq, List.flatten_cons, List.length_append]
          simp only [Nat.add_assoc]

/-- Collecting a legacy packet releases nothing, whether it goes through or not. -/
theorem feed_legacy_out (s : DecryptionState) (hformat : s.format = .legacy)
    (chunks : List Bytes) : ((machine crypto stream).feed s chunks).out = [] := by
  induction chunks generalizing s with
  | nil => rfl
  | cons c cs ih =>
    rw [Transform.feed_cons]
    change (transform crypto stream s c >>= _).out = _
    by_cases hlim : (c.length : Int) > (stream.limits.maxInputBytes : Int) - s.totalInput
    · simp only [transform, if_pos hlim, Emit.fail_bind, Emit.fail_out]
    · obtain ⟨legacyChunks, -, heq⟩ := transform_legacy crypto stream s c hformat
        (by omega)
      rw [heq, pure_bind]
      exact ih _ hformat

theorem feed_unknown_legacy_out (s : DecryptionState) (hformat : s.format = .unknown)
    (chunks : List Bytes) (hhead : chunks.flatten.head? ≠ magic.head?) :
    ((machine crypto stream).feed s chunks).out = [] := by
  induction chunks generalizing s with
  | nil => rfl
  | cons c cs ih =>
    rw [Transform.feed_cons]
    change (transform crypto stream s c >>= _).out = _
    -- a chunk that is refused brings nothing out either
    by_cases hlim : (c.length : Int) > (stream.limits.maxInputBytes : Int) - s.totalInput
    · simp only [transform, if_pos hlim, Emit.fail_bind, Emit.fail_out]
    · cases c with
      | nil =>
        rw [transform_nil crypto stream s (by simp at hlim; omega), pure_bind]
        exact ih s hformat hhead
      | cons x xs =>
        rw [transform_unknown_legacy crypto stream s hformat hhead (by omega)]
        split
        · rfl
        · rw [pure_bind]
          exact feed_legacy_out crypto stream _ rfl cs

/-- Some call of `transform` refuses what does not fit under the input limit. -/
theorem feed_error_of_lt (s : DecryptionState) (chunks : List Bytes)
    (hs : s.totalInput ≤ stream.limits.maxInputBytes)
    (h : stream.limits.maxInputBytes < s.totalInput + chunks.flatten.length) :
    ∃ e, ((machine crypto stream).feed s chunks).result = .error e := by
  cases hfeed : ((machine crypto stream).feed s chunks).result with
  | error e => exact ⟨e, rfl⟩
  | ok s' =>
    obtain ⟨hcount, hle⟩ := feed_totalInput crypto stream hs hfeed
    omega

theorem not_succeeds_of_lt (chunks : List Bytes)
    (h : stream.limits.maxInputBytes < chunks.flatten.length) :
    ¬ ((machine crypto stream).complete DecryptionState.start chunks).Succeeds := by
  obtain ⟨e, hfeed⟩ := feed_error_of_lt crypto stream DecryptionState.start chunks (Nat.zero_le _)
    (by simpa [DecryptionState.start] using h)
  rintro ⟨_, hsucc⟩
  rw [Transform.complete, Emit.bind_error hfeed] at hsucc
  cases hsucc

/-- `decryptFramed` as the stream does it: one run over the input, and then the
    check that it stands behind the final frame. -/
theorem complete_framed (chunks : List Bytes) (hhead : chunks.flatten.head? = magic.head?)
    (h : chunks.flatten.length ≤ stream.limits.maxInputBytes) :
    (machine crypto stream).complete DecryptionState.start chunks =
      (framedLoop crypto stream).run FramedState.start chunks.flatten >>= fun framed =>
        Emit.ofExcept (atEnd framed) := by
  rw [Transform.complete, feed_unknown_framed crypto stream DecryptionState.start rfl chunks hhead
    (by simpa [DecryptionState.start] using h), bind_assoc]
  rfl

/-- Without one byte of input the stream is incomplete. -/
theorem complete_empty (chunks : List Bytes) (h : chunks.flatten = []) :
    (machine crypto stream).complete DecryptionState.start chunks =
      Emit.fail (plainError "[PipeX] Decryption failed: incomplete encrypted stream") := by
  induction chunks with
  | nil => rfl
  | cons c cs ih =>
    obtain ⟨rfl, hcs⟩ := List.append_eq_nil_iff.mp h
    rw [← ih hcs, Transform.complete, Transform.complete, Transform.feed_cons]
    change transform crypto stream DecryptionState.start [] >>= _ >>= _ = _
    rw [transform_nil crypto stream _ (Nat.zero_le _), pure_bind]

/-- What the legacy gate lets through is opened at the end, all of it at once. -/
theorem complete_legacy (chunks : List Bytes) (hne : chunks.flatten ≠ [])
    (hhead : chunks.flatten.head? ≠ magic.head?)
    (h : chunks.flatten.length ≤ stream.limits.maxInputBytes) :
    (machine crypto stream).complete DecryptionState.start chunks =
      if stream.allowLegacyDecrypt = some false then
        Emit.fail (plainError "[PipeX] Decryption failed: legacy format disabled")
      else
        Emit.ofExcept (decryptLegacy crypto chunks.flatten stream.key stream.limits) >>=
          Emit.push := by
  rcases feed_unknown_legacy crypto stream DecryptionState.start rfl chunks hne hhead
      (by simpa [DecryptionState.start] using h) with ⟨hgate, hfeed⟩ |
    ⟨hgate, legacyChunks, hlegacy, hfeed⟩
  · rw [if_pos hgate, Transform.complete, hfeed, Emit.fail_bind]
  · rw [if_neg hgate, Transform.complete, hfeed, pure_bind]
    -- `flush` decrypts what was collected
    change Emit.ofExcept (decryptLegacy crypto (bufferConcat legacyChunks _) stream.key
      stream.limits) >>= _ = _
    rw [bufferConcat_eq_flatten (by rw [hlegacy]; simp [DecryptionState.start]), hlegacy]
    rfl

end DecryptionStream

/-- Over any input that starts like a packet, the stream and `decryptFramed` give
    the same answer. -/
theorem complete_framed_delivers (crypto : Crypto) (stream : DecryptionStream)
    (chunks : List Bytes) (hhead : chunks.flatten.head? = magic.head?)
    (hlim : chunks.flatten.length ≤ stream.limits.maxInputBytes) :
    ((stream.machine crypto).complete DecryptionState.start chunks).Delivers
      (decryptFramed crypto chunks.flatten stream.key stream.limits) := by
  rw [DecryptionStream.complete_framed crypto stream chunks hhead hlim]
  cases hbuffer : decryptFramed crypto chunks.flatten stream.key stream.limits with
  | error e =>
    -- the loop fails, or `flush` finds the frames incomplete
    refine Emit.delivers_error (fun hsucc => ?_) e
    obtain ⟨s, hrun, hend⟩ := (Emit.succeeds_bind _ _).mp hsucc
    obtain ⟨e', hend'⟩ := DecryptionStream.run_of_decryptFramed_error crypto stream hbuffer hrun
    rw [hend'] at hend
    exact Emit.not_succeeds_fail e' hend
  | ok plaintext =>
    obtain ⟨released, s, hrun, hend, hflat⟩ :=
      DecryptionStream.run_of_decryptFramed_ok crypto stream hbuffer
    rw [hrun, Emit.bind_ok rfl, hend]
    exact Emit.delivers_ok rfl (by simpa using hflat)

/-- With the legacy option given, stream and buffer decryption treat an input that
    does not start like a packet alike. -/
theorem complete_legacy_delivers (crypto : Crypto) (key : Bytes) (allowLegacyDecrypt : Bool)
    (limits : FormatLimits) (chunks : List Bytes) (hhead : chunks.flatten.head? ≠ magic.head?)
    (hlim : chunks.flatten.length ≤ limits.maxInputBytes) :
    (((DecryptionStream.mk key (some allowLegacyDecrypt) limits).machine crypto).complete
        DecryptionState.start chunks).Delivers
      (if some allowLegacyDecrypt ≠ some true then
        .error (plainError "[PipeX] Decryption failed: legacy format disabled")
      else decryptLegacy crypto chunks.flatten key limits) := by
  by_cases hne : chunks.flatten = []
  · -- nothing was received: both fail, with or without the option
    have hshort : decryptLegacy crypto [] key limits =
        .error (plainError "[PipeX] Decryption failed: packet too short") := rfl
    rw [DecryptionStream.complete_empty crypto _ chunks hne, hne, hshort]
    split <;> exact Emit.delivers_error (Emit.not_succeeds_fail _) _
  · rw [DecryptionStream.complete_legacy crypto _ chunks hne hhead hlim]
    cases allowLegacyDecrypt with
    | false => exact Emit.delivers_error (Emit.not_succeeds_fail _) _
    | true => exact Emit.delivers_push _

/-- A stream under construction either fails for its key or fixes its limits. -/
theorem decryptStream_eq (crypto : Crypto) (options : EncryptionFormatOptions)
    (contextLimits : Option EngineLimits) (chunks : List Bytes) :
    decryptStream crypto options contextLimits chunks =
      Emit.ofExcept (assertEncryptionKey options.key) >>= fun _ =>
        ((DecryptionStream.mk options.key options.allowLegacyDecrypt
          (limitsFor contextLimits)).machine crypto).complete DecryptionState.start chunks := by
  simp only [decryptStream, createDecryptionStream, assertEncryptionKey]
  split <;> rfl

theorem feedDecryptStream_eq (crypto : Crypto) (options : EncryptionFormatOptions)
    (contextLimits : Option EngineLimits) (chunks : List Bytes) :
    feedDecryptStream crypto options contextLimits chunks =
      Emit.ofExcept (assertEncryptionKey options.key) >>= fun _ =>
        ((DecryptionStream.mk options.key options.allowLegacyDecrypt
          (limitsFor contextLimits)).machine crypto).feed DecryptionState.start chunks := by
  simp only [feedDecryptStream, createDecryptionStream, assertEncryptionKey]
  split <;> rfl

/-- With the legacy option given, stream and buffer decryption accept the same
    inputs and restore the same plaintext, however the input is cut. -/
theorem decryptStream_delivers (crypto : Crypto) (options : EncryptionFormatOptions)
    (allowLegacyDecrypt : Bool) (contextLimits : Option EngineLimits) (chunks : List Bytes) :
    (decryptStream crypto { options with allowLegacyDecrypt := some allowLegacyDecrypt }
        contextLimits chunks).Delivers
      (decryptBuffer crypto chunks.flatten
        { options with allowLegacyDecrypt := some allowLegacyDecrypt } contextLimits) := by
  rw [decryptStream_eq, decryptBuffer_eq]
  cases assertEncryptionKey options.key with
  | error e => exact Emit.delivers_error (Emit.not_succeeds_fail e) e
  | ok _ =>
  simp only [Emit.ofExcept_ok, pure_bind]
  -- both sides take the same three decisions
  change Emit.Delivers _ (ite _ _ _)
  by_cases hlim : chunks.flatten.length > (limitsFor contextLimits).maxInputBytes
  · rw [if_pos hlim]
    exact Emit.delivers_error (DecryptionStream.not_succeeds_of_lt crypto
      ⟨options.key, some allowLegacyDecrypt, limitsFor contextLimits⟩ chunks hlim) _
  · rw [if_neg hlim]
    by_cases hhead : chunks.flatten.head? = magic.head?
    · rw [if_pos hhead]
      exact complete_framed_delivers crypto
        ⟨options.key, some allowLegacyDecrypt, limitsFor contextLimits⟩ chunks hhead
        (Nat.le_of_not_lt hlim)
    · rw [if_neg hhead]
      exact complete_legacy_delivers crypto options.key allowLegacyDecrypt (limitsFor contextLimits)
        chunks hhead (Nat.le_of_not_lt hlim)

end PipeX.EncryptionFormat
