/-
  PipeX.Plugin.EncryptionFormat.StreamRelease

  What a decryption stream can release at all, where only the frames of one
  packet open.

  `OnlyOpens` is the assumption: under a parsed header and its key, nothing opens
  but the frames of a list, each at its own place.  `framedLoop_released` is the
  invariant of the loop under it: standing behind `k` frames, it releases the
  plaintexts from the `k`-th on, and it ends well only behind all frames.
-/
import PipeX.Plugin.EncryptionFormat.ChunkedDecryption
import PipeX.Plugin.EncryptionFormat.Packet

namespace PipeX.EncryptionFormat

open Chunked Aead

/-- Only the given frames open, the frame with sequence number `i` at place `i`,
    and the last of them is the final frame. -/
structure OnlyOpens (crypto : Crypto) (parsedHeader : ParsedHeader) (derivedKey : Bytes)
    (frames : List SealedFrame) : Prop where
  opens : ∀ {ciphertext tag frameHeader restored : Bytes} {sequence : Nat},
    decryptFrame crypto ciphertext tag frameHeader sequence parsedHeader.algorithm derivedKey
      parsedHeader.bytes = .ok restored →
    ∃ frame, frames[sequence]? = some frame ∧ frame.bytes = frameHeader ++ ciphertext ++ tag ∧
      frame.header = frameHeader ∧ frame.call.plaintext = restored
  final : ∀ {i : Nat} {frame : SealedFrame}, frames[i]? = some frame →
    (readFrameType frame.header = finalFrame ↔ i + 1 = frames.length)

/-- The plaintexts of the data frames. -/
def pieces (frames : List SealedFrame) : List Bytes :=
  frames.dropLast.map (·.call.plaintext)

/-- At the final frame nothing is left to release, -/
theorem drop_pieces_last {frames : List SealedFrame} {sequence : Nat}
    (hlast : sequence + 1 = frames.length) : (pieces frames).drop sequence = [] := by
  apply List.drop_of_length_le
  rw [pieces, List.length_map, List.length_dropLast]
  omega

/-- and before it the plaintext of the next frame is. -/
theorem drop_pieces_cons {frames : List SealedFrame} {sequence : Nat} {frame : SealedFrame}
    (hframe : frames[sequence]? = some frame) (hmore : sequence + 1 ≠ frames.length) :
    (pieces frames).drop sequence = frame.call.plaintext :: (pieces frames).drop (sequence + 1) := by
  obtain ⟨hlt, hget⟩ := List.getElem?_eq_some_iff.mp hframe
  have hlt' : sequence < (pieces frames).length := by
    rw [pieces, List.length_map, List.length_dropLast]
    omega
  rw [List.drop_eq_getElem_cons hlt']
  simp only [pieces, List.getElem_map, List.getElem_dropLast, hget]

namespace DecryptionStream

variable (crypto : Crypto) (stream : DecryptionStream)

/-- Behind the final frame nothing is released, and nothing may follow. -/
theorem framedLoop_finalSeen {parsedHeader : ParsedHeader} {derivedKey : Bytes} {t : DecryptState}
    (hseen : t.finalSeen = true) (rest : Bytes) :
    ((framedLoop crypto stream).run (boundary parsedHeader derivedKey t) rest).out = [] ∧
      (((framedLoop crypto stream).run (boundary parsedHeader derivedKey t) rest).Succeeds →
        rest = []) := by
  cases rest with
  | nil => exact ⟨rfl, fun _ => rfl⟩
  | cons x xs =>
    have hfail : (framedLoop crypto stream).run (boundary parsedHeader derivedKey t) (x :: xs) =
        Emit.fail (plainError "[PipeX] Decryption failed: trailing data after final frame") := by
      rw [InputLoop.run_cons, framedLoop_body, framedPass,
        if_pos (show (boundary parsedHeader derivedKey t).finalSeen = true from hseen),
        Emit.fail_bind]
    rw [hfail]
    exact ⟨rfl, fun hsucc => absurd hsucc (Emit.not_succeeds_fail _)⟩

/-- The invariant of the loop, between two frames: the frame with the expected
    sequence number is next. -/
theorem framedLoop_released {parsedHeader : ParsedHeader} {derivedKey : Bytes}
    {frames : List SealedFrame} (honly : OnlyOpens crypto parsedHeader derivedKey frames)
    (t : DecryptState) (rest : Bytes) (hseen : t.finalSeen = false) :
    ((framedLoop crypto stream).run (boundary parsedHeader derivedKey t) rest).out <+:
        (pieces frames).drop t.expectedSequence ∧
      ∀ s, ((framedLoop crypto stream).run (boundary parsedHeader derivedKey t) rest).result
          = .ok s → atEnd s = .ok () →
        t.expectedSequence < frames.length ∧
        rest = ((frames.drop t.expectedSequence).map SealedFrame.bytes).flatten ∧
        ((framedLoop crypto stream).run (boundary parsedHeader derivedKey t) rest).out =
          (pieces frames).drop t.expectedSequence := by
  induction t, rest using decryptLoop_induct crypto stream.limits parsedHeader derivedKey with
  | nil t =>
    refine ⟨List.nil_prefix, fun s hs hend => ?_⟩
    cases hs
    rw [atEnd_boundary, if_pos hseen] at hend
    cases hend
  | error t rest e hrest hpass =>
    obtain ⟨hout, hresult⟩ := framedLoop_run_error crypto stream hrest hpass
    refine ⟨hout ▸ List.nil_prefix, fun s hs hend => ?_⟩
    obtain ⟨e', herror⟩ := hresult s hs
    rw [herror] at hend
    cases hend
  | ok t rest t₁ rest₁ hrest hpass ih =>
    obtain ⟨released, hplain, hrun⟩ := framedLoop_run_ok crypto stream hrest hpass
    obtain ⟨-, frameHeader, ciphertext, tag, restored, hsplit, -, -, -, hcheck, hopen, hafter⟩ :=
      decryptPass_ok crypto stream.limits parsedHeader derivedKey hpass
    have hseq : readFrameSequence frameHeader = t.expectedSequence := checkFrameHeader_sequence hcheck
    rw [hseq] at hopen
    -- the frame that opens is the one with the expected sequence number
    obtain ⟨frame, hframe, hbytes, hheader, hplaintext⟩ := honly.opens hopen
    obtain ⟨hlt, hget⟩ := List.getElem?_eq_some_iff.mp hframe
    have hfinal := honly.final hframe
    rw [hheader] at hfinal
    have hdrop : frames.drop t.expectedSequence = frame :: frames.drop (t.expectedSequence + 1) := by
      rw [List.drop_eq_getElem_cons hlt, hget]
    rw [hrun, hdrop, hsplit, ← hbytes]
    by_cases htype : readFrameType frameHeader = finalFrame
    · -- the final frame: nothing is released, and nothing is left
      have hlast := hfinal.mp htype
      have hfinalSeen : t₁.finalSeen = true := by
        rw [hafter, DecryptState.afterFrame, if_pos htype]
      have hnone : released = [] := by
        rw [hafter, DecryptState.afterFrame, if_pos htype] at hplain
        exact List.self_eq_append_right.mp hplain
      obtain ⟨hout, hrest₁⟩ := framedLoop_finalSeen crypto stream hfinalSeen rest₁
      rw [drop_pieces_last hlast, hnone, hout]
      refine ⟨List.prefix_refl _, fun s hs _ => ⟨hlt, ?_, rfl⟩⟩
      rw [hrest₁ ⟨s, hs⟩, List.drop_of_length_le (Nat.le_of_eq hlast.symm)]
      simp
    · -- a data frame: its plaintext is released, and the loop goes on behind it
      have hmore : t.expectedSequence + 1 ≠ frames.length := fun hlast => htype (hfinal.mpr hlast)
      have hstate : t₁.finalSeen = false ∧ t₁.expectedSequence = t.expectedSequence + 1 := by
        rw [hafter, DecryptState.afterFrame, if_neg htype]
        exact ⟨hseen, rfl⟩
      have hone : released = [frame.call.plaintext] := by
        rw [hafter, DecryptState.afterFrame, if_neg htype] at hplain
        rw [hplaintext]
        exact (List.append_cancel_left hplain).symm
      obtain ⟨hfront, hend⟩ := ih hstate.1
      rw [hstate.2] at hfront hend
      rw [drop_pieces_cons hframe hmore, hone]
      refine ⟨?_, fun s hs hatEnd => ?_⟩
      · exact (List.prefix_append_right_inj [frame.call.plaintext]).mpr hfront
      · obtain ⟨-, hrest₁, hout⟩ := hend s hs hatEnd
        exact ⟨hlt, by rw [hrest₁]; simp, by rw [hout]; rfl⟩

/-- A run over the whole input comes to nothing, or it has a parsed header and goes
    on between two frames. -/
theorem run_start_cases (input : Bytes) :
    (((framedLoop crypto stream).run FramedState.start input).out = [] ∧
      ∀ s, ((framedLoop crypto stream).run FramedState.start input).result = .ok s →
        atEnd s ≠ .ok ()) ∨
    ∃ header rest parsedHeader, input = header ++ rest ∧ header.length = globalHeaderLength ∧
      parseHeader header stream.limits = .ok parsedHeader ∧
      (framedLoop crypto stream).run FramedState.start input =
        (framedLoop crypto stream).run
          (boundary parsedHeader (deriveKey crypto stream.key parsedHeader) DecryptState.init)
          rest := by
  -- an input that ends inside the header does not end well
  by_cases hshort : input.length < globalHeaderLength
  · obtain ⟨s', hrun, e, hend⟩ := run_start_short crypto stream hshort
    rw [hrun]
    refine .inl ⟨rfl, fun s hs => ?_⟩
    cases hs
    rw [hend]
    exact fun h => by cases h
  · obtain ⟨header, rest, rfl, hlen⟩ : ∃ header rest, input = header ++ rest ∧
        header.length = globalHeaderLength :=
      ⟨_, _, (List.take_append_drop globalHeaderLength input).symm, by
        rw [List.length_take]; omega⟩
    have hrun := run_start crypto stream hlen rest
    cases hparse : parseHeader header stream.limits with
    | error e =>
      rw [hrun, hparse]
      exact .inl ⟨rfl, fun s hs => by cases hs⟩
    | ok parsedHeader =>
      refine .inr ⟨header, rest, parsedHeader, rfl, hlen, hparse, ?_⟩
      rw [hrun, hparse, Emit.ofExcept_ok, pure_bind]

/-! ## Stopped anywhere -/

/-- A call of `transform` that goes wrong on the input limit writes nothing, so a
    framed stream never writes more than the loop over all it was fed. -/
theorem feed_framed_out (s : DecryptionState) (hformat : s.format = .framed) (chunks : List Bytes) :
    ((machine crypto stream).feed s chunks).out <+:
      ((framedLoop crypto stream).run s.framed chunks.flatten).out := by
  induction chunks generalizing s with
  | nil => exact List.nil_prefix
  | cons c cs ih =>
    rw [Transform.feed_cons]
    change (transform crypto stream s c >>= _).out <+: _
    by_cases hlim : (c.length : Int) > (stream.limits.maxInputBytes : Int) - s.totalInput
    · simp only [transform, if_pos hlim, Emit.fail_bind, Emit.fail_out]
      exact List.nil_prefix
    · rw [transform_framed crypto stream s hformat (by omega), bind_assoc, List.flatten_cons,
        (framedLoop_splits crypto stream).run_append]
      refine Emit.bind_out_prefix fun framed _ => ?_
      rw [pure_bind]
      exact ih _ hformat

theorem feed_unknown_framed_out (s : DecryptionState) (hformat : s.format = .unknown)
    (chunks : List Bytes) (hhead : chunks.flatten.head? = magic.head?) :
    ((machine crypto stream).feed s chunks).out <+:
      ((framedLoop crypto stream).run s.framed chunks.flatten).out := by
  induction chunks with
  | nil => exact List.nil_prefix
  | cons c cs ih =>
    rw [Transform.feed_cons]
    change (transform crypto stream s c >>= _).out <+: _
    by_cases hlim : (c.length : Int) > (stream.limits.maxInputBytes : Int) - s.totalInput
    · simp only [transform, if_pos hlim, Emit.fail_bind, Emit.fail_out]
      exact List.nil_prefix
    · cases c with
      | nil =>
        rw [transform_nil crypto stream s (by simp at hlim; omega), pure_bind]
        exact ih hhead
      | cons x xs =>
        rw [transform_unknown_framed crypto stream s hformat hhead (by omega), bind_assoc,
          List.flatten_cons, (framedLoop_splits crypto stream).run_append]
        refine Emit.bind_out_prefix fun framed _ => ?_
        rw [pure_bind]
        exact feed_framed_out crypto stream _ rfl cs

end DecryptionStream
end PipeX.EncryptionFormat
