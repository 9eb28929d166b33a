/-
  PipeX.Plugin.EncryptionFormat.RoundTrip

  `decryptBuffer` restores what `encryptBuffer` sealed, under the same key and the
  same limits.  Every check of the decoder follows from one of the encoder: the
  frame count and the encoded length bound the counters of the loop, the resolved
  frame size bounds each frame, and a plugin may read what it may write.
-/
import PipeX.Plugin.EncryptionFormat.Packet

namespace PipeX.EncryptionFormat

open Chunked Aead BigEndian

variable {crypto : Crypto}

/-! ## One frame -/

/-- A sealed frame opens to its plaintext. -/
theorem decryptFrame_encryptFrame (hcorrect : crypto.cipher.Correct)
    {plaintext key globalHeader : Bytes} {type sequence : Nat} {algorithm : EncryptionAlgorithm}
    {frame : SealedFrame}
    (h : encryptFrame crypto plaintext type sequence algorithm key globalHeader = .ok frame) :
    decryptFrame crypto frame.call.ciphertext frame.call.tag frame.header
      (readFrameSequence frame.header) algorithm key globalHeader = .ok plaintext := by
  obtain ⟨frameHeader, nonce, hheader, hnonce, rfl⟩ := encryptFrame_ok h
  obtain ⟨-, -, hseq, -, -⟩ := buildFrameHeader_ok hheader
  rw [decryptFrame_ok_iff, hseq]
  exact ⟨crypto.cipher.tag_length _ _ _ _ _, nonce, hnonce, hcorrect _ _ _ _ _⟩

/-- One pass of the decoder over a sealed frame that passes the header checks. -/
theorem decryptPass_encryptFrame (hcorrect : crypto.cipher.Correct) {limits : FormatLimits}
    {parsedHeader : ParsedHeader} {derivedKey plaintext : Bytes} {type sequence : Nat}
    {frame : SealedFrame}
    (h : encryptFrame crypto plaintext type sequence parsedHeader.algorithm derivedKey
      parsedHeader.bytes = .ok frame)
    {t : DecryptState} (hseen : t.finalSeen = false)
    (hcheck : checkFrameHeader limits parsedHeader t.expectedSequence t.dataFrames
      t.plaintextBytes frame.header = .ok ()) (rest : Bytes) :
    decryptPass crypto limits parsedHeader derivedKey t (frame.bytes ++ rest) =
      .ok (t.afterFrame type plaintext, rest) := by
  have hopen := decryptFrame_encryptFrame hcorrect h
  obtain ⟨hheader, hct, htag⟩ := encryptFrame_header h
  obtain ⟨hlen, htype, -, hlength, -⟩ := buildFrameHeader_ok hheader
  rw [SealedFrame.bytes, List.append_assoc, List.append_assoc,
    decryptPass_append crypto limits parsedHeader derivedKey hseen hlen (hct.trans hlength.symm)
      htag hcheck, hopen, htype]
  rfl

/-- The header of a data frame passes where frame, count and total fit. -/
theorem checkFrameHeader_dataFrame {limits : FormatLimits} {parsedHeader : ParsedHeader}
    {sequence n dataFrames total : Nat} {frameHeader : Bytes}
    (hheader : buildFrameHeader dataFrame sequence n = .ok frameHeader)
    (hframe : n ≤ parsedHeader.frameSizeBytes) (hlimit : n + frameOverhead ≤ limits.maxFrameBytes)
    (hcount : dataFrames < limits.maxFrames) (htotal : total + n ≤ limits.maxOutputBytes) :
    checkFrameHeader limits parsedHeader sequence dataFrames total frameHeader = .ok () := by
  obtain ⟨-, htype, hseq, hct, -⟩ := buildFrameHeader_ok hheader
  simp only [checkFrameHeader, htype, hseq, hct, ne_eq, not_true_eq_false, if_false, true_and]
  rw [if_neg (by decide), if_neg (by simp [dataFrame, finalFrame]), if_neg (by omega),
    if_neg (by omega), if_neg (by omega)]

/-- The header of the empty final frame passes whatever the totals are. -/
theorem checkFrameHeader_finalFrame {limits : FormatLimits} {parsedHeader : ParsedHeader}
    {sequence dataFrames total : Nat} {frameHeader : Bytes}
    (hheader : buildFrameHeader finalFrame sequence 0 = .ok frameHeader)
    (hlimit : frameOverhead ≤ limits.maxFrameBytes) :
    checkFrameHeader limits parsedHeader sequence dataFrames total frameHeader = .ok () := by
  obtain ⟨-, htype, hseq, hct, -⟩ := buildFrameHeader_ok hheader
  simp only [checkFrameHeader, htype, hseq, hct, ne_eq, not_true_eq_false, if_false]
  rw [if_neg (by decide), if_neg (by simp), if_neg (by omega),
    if_neg (by simp [dataFrame, finalFrame]), if_neg (by simp [dataFrame, finalFrame])]

/-! ## All frames -/

/-- The decoder reads the data frames of a message back, one pass for each. -/
theorem decryptLoop_dataFrames (hcorrect : crypto.cipher.Correct) {limits : FormatLimits}
    {parsedHeader : ParsedHeader} {derivedKey : Bytes} {frameSizeBytes : FrameSize}
    (hsize : parsedHeader.frameSizeBytes = frameSizeBytes.val)
    (hlimit : frameSizeBytes.val + frameOverhead ≤ limits.maxFrameBytes)
    {sequence : Nat} {data : Bytes} {frames : List SealedFrame}
    (h : DataFrames crypto parsedHeader.algorithm frameSizeBytes derivedKey parsedHeader.bytes
      sequence data frames)
    (t : DecryptState) (hseen : t.finalSeen = false) (hseq : t.expectedSequence = sequence)
    (hcount : t.dataFrames + frames.length ≤ limits.maxFrames)
    (htotal : t.plaintextBytes + data.length ≤ limits.maxOutputBytes) (rest : Bytes) :
    (decryptLoop crypto limits parsedHeader derivedKey).run t
        ((frames.map SealedFrame.bytes).flatten ++ rest) =
      (decryptLoop crypto limits parsedHeader derivedKey).run
        { t with
          plaintext := t.plaintext ++ frames.map (·.call.plaintext)
          plaintextBytes := t.plaintextBytes + data.length
          expectedSequence := sequence + frames.length
          dataFrames := t.dataFrames + frames.length } rest := by
  induction h generalizing t with
  | nil sequence => subst hseq; simp
  | @cons sequence data frame frames nonempty first others ih =>
    obtain ⟨frameHeader, nonce, hheader, -, hframe⟩ := encryptFrame_ok first
    have htake : (data.take frameSizeBytes.val).length + (data.drop frameSizeBytes.val).length =
        data.length := by
      rw [← List.length_append, List.take_append_drop]
    have hle : (data.take frameSizeBytes.val).length ≤ frameSizeBytes.val := by
      rw [List.length_take]
      omega
    rw [List.length_cons] at hcount
    have hcheck : checkFrameHeader limits parsedHeader t.expectedSequence t.dataFrames
        t.plaintextBytes frame.header = .ok () := by
      rw [hseq, hframe]
      exact checkFrameHeader_dataFrame hheader (hsize ▸ hle) (by omega) (by omega) (by omega)
    rw [List.map_cons, List.flatten_cons, List.append_assoc]
    -- one pass reads the first frame, the others are read from the state behind it
    have hpass := decryptPass_encryptFrame hcorrect first hseen hcheck
      ((frames.map SealedFrame.bytes).flatten ++ rest)
    have hne : frame.bytes ++ ((frames.map SealedFrame.bytes).flatten ++ rest) ≠ [] := by
      intro hnil
      have hlen := congrArg List.length hnil
      rw [List.length_append, encryptFrame_bytes_length first] at hlen
      simp [frameOverhead, frameHeaderLength] at hlen
    rw [decryptLoop_run_ok crypto limits parsedHeader derivedKey hne hpass]
    have hplain : frame.call.plaintext = data.take frameSizeBytes.val := congrArg
      (·.call.plaintext) hframe
    have hafter : t.afterFrame dataFrame (data.take frameSizeBytes.val) =
        { t with
          dataFrames := t.dataFrames + 1
          plaintextBytes := t.plaintextBytes + (data.take frameSizeBytes.val).length
          plaintext := t.plaintext ++ [data.take frameSizeBytes.val]
          expectedSequence := t.expectedSequence + 1 } := rfl
    rw [ih (t.afterFrame dataFrame (data.take frameSizeBytes.val)) hseen (by rw [hafter, hseq])
      (by rw [hafter]; simp only; omega) (by rw [hafter]; simp only; omega), hafter]
    congr 1
    simp only [DecryptState.mk.injEq, List.map_cons, hplain, List.append_assoc,
      List.singleton_append, List.length_cons, and_true, true_and]
    omega

/-- The final frame ends the message. -/
theorem decryptLoop_finalFrame (hcorrect : crypto.cipher.Correct) {limits : FormatLimits}
    {parsedHeader : ParsedHeader} {derivedKey : Bytes} {final : SealedFrame}
    (hlimit : frameOverhead ≤ limits.maxFrameBytes) (t : DecryptState) (hseen : t.finalSeen = false)
    (h : encryptFrame crypto [] finalFrame t.expectedSequence parsedHeader.algorithm derivedKey
      parsedHeader.bytes = .ok final) :
    (decryptLoop crypto limits parsedHeader derivedKey).run t final.bytes =
      pure { t with finalSeen := true, expectedSequence := t.expectedSequence + 1 } := by
  have hcheck : checkFrameHeader limits parsedHeader t.expectedSequence t.dataFrames
      t.plaintextBytes final.header = .ok () :=
    checkFrameHeader_finalFrame (encryptFrame_header h).1 hlimit
  have hpass := decryptPass_encryptFrame hcorrect h hseen hcheck []
  have hne : final.bytes ++ [] ≠ [] := by
    intro hnil
    have hlen := congrArg List.length hnil
    rw [List.length_append, encryptFrame_bytes_length h] at hlen
    simp [frameOverhead, frameHeaderLength] at hlen
  have hrun := decryptLoop_run_ok crypto limits parsedHeader derivedKey hne hpass
  rw [List.append_nil] at hrun
  exact hrun

/-- The loop over a whole packet. -/
theorem decryptLoop_packet (hcorrect : crypto.cipher.Correct) {limits : FormatLimits}
    (parsedHeader : ParsedHeader) {derivedKey : Bytes} {frameSizeBytes : FrameSize}
    (hsize : parsedHeader.frameSizeBytes = frameSizeBytes.val)
    (hlimit : frameSizeBytes.val + frameOverhead ≤ limits.maxFrameBytes)
    {data : Bytes} {frames : List SealedFrame} {final : SealedFrame}
    (hdata : DataFrames crypto parsedHeader.algorithm frameSizeBytes derivedKey parsedHeader.bytes
      0 data frames)
    (hfinal : encryptFrame crypto [] finalFrame frames.length parsedHeader.algorithm derivedKey
      parsedHeader.bytes = .ok final)
    (hcount : frames.length ≤ limits.maxFrames) (htotal : data.length ≤ limits.maxOutputBytes) :
    (decryptLoop crypto limits parsedHeader derivedKey).run DecryptState.init
        ((frames.map SealedFrame.bytes).flatten ++ final.bytes) =
      pure ⟨frames.map (·.call.plaintext), data.length, frames.length + 1, frames.length,
        true⟩ := by
  rw [decryptLoop_dataFrames hcorrect hsize hlimit hdata DecryptState.init rfl rfl
    (by simpa [DecryptState.init] using hcount) (by simpa [DecryptState.init] using htotal),
    decryptLoop_finalFrame hcorrect (by omega) _ rfl (by simpa using hfinal)]
  simp [DecryptState.init]

/-- The decoder behind its input check restores every packet. -/
theorem decryptFramed_encryptPacket (hcorrect : crypto.cipher.Correct) {salt : Salt}
    {data : Bytes} {options : EncryptionFormatOptions} {contextLimits : Option EngineLimits}
    {packet : Packet} (h : encryptPacket crypto salt data options contextLimits = .ok packet) :
    decryptFramed crypto packet.bytes options.key (limitsFor contextLimits) = .ok data := by
  obtain ⟨-, frameSizeBytes, hsize, hfits, hheader, -, frames, final, hframes, hdata, hfinal⟩ :=
    encryptPacket_ok h
  -- what the encoder has checked suffices for the checks of the decoder
  have htotal : data.length ≤ (limitsFor contextLimits).maxOutputBytes := by
    have hout := hfits.output
    rw [encodedLength_eq] at hout
    omega
  have hcount : frames.length ≤ (limitsFor contextLimits).maxFrames := by
    rw [hdata.length_eq]
    exact hfits.frames
  rw [hheader] at hdata hfinal
  have hloop := decryptLoop_packet hcorrect (packetHeader options.algorithm frameSizeBytes salt) rfl
    (resolveFrameSize_le hsize) hdata hfinal hcount htotal
  have hplain := hdata.plaintexts
  rw [Packet.bytes, hframes, hheader, List.map_append, List.flatten_append, List.map_singleton,
    List.flatten_singleton, decryptFramed_append crypto (buildHeader_length _ _ _),
    parseHeader_buildHeader _ _ _ (resolveFrameSize_le hsize)]
  change (Emit.result _ >>= _) = _
  rw [hloop]
  change Except.ok (bufferConcat _ _) = _
  rw [bufferConcat_eq_flatten (by rw [hplain]), hplain]

/-- A packet of exactly the announced length is restored, whatever the decrypting
    plugin's own algorithm, frame size and legacy option are. -/
theorem decryptBuffer_encryptBuffer (crypto : Crypto) (hcorrect : crypto.cipher.Correct)
    (salt : Salt) (data : Bytes) (options : EncryptionFormatOptions)
    (contextLimits : Option EngineLimits) (encrypted : Bytes)
    (h : encryptBuffer crypto salt data options contextLimits = .ok encrypted) :
    (∃ frameSizeBytes, resolveFrameSize options (limitsFor contextLimits) = .ok frameSizeBytes ∧
      encrypted.length = encodedLength data.length frameSizeBytes.val) ∧
    ∀ reader : EncryptionFormatOptions, reader.key = options.key →
      decryptBuffer crypto encrypted reader contextLimits = .ok data := by
  obtain ⟨packet, hpacket, rfl⟩ := encryptBuffer_ok h
  have hlength := encryptPacket_length hpacket
  obtain ⟨hkey, frameSizeBytes, hsize, hfits, hheader, houtput, -⟩ := encryptPacket_ok hpacket
  rw [houtput] at hlength
  refine ⟨⟨frameSizeBytes, hsize, hlength⟩, fun reader hreader => ?_⟩
  have hinput : ¬ packet.bytes.length > (limitsFor contextLimits).maxInputBytes := by
    have hle := pluginOutputLimit_le_pluginInputLimit contextLimits
    have hout := hfits.output
    simp only [limitsFor] at hout ⊢
    omega
  have hhead : packet.bytes.head? = magic.head? := by
    rw [Packet.bytes, hheader]
    rfl
  rw [decryptBuffer_eq, hreader, hkey]
  change ite _ _ _ = _
  rw [if_neg hinput, if_pos hhead, decryptFramed_encryptPacket hcorrect hpacket]

/-- Three bytes in frames of two, read back by a plugin set up for the other
    algorithm. -/
theorem decryptBuffer_encryptBuffer_three_bytes :
    ∃ encrypted, encryptBuffer checksumCrypto zeroSalt [1, 2, 3]
        ⟨.aes256Gcm, List.replicate 32 7, some (.integer 2), none⟩ none = .ok encrypted ∧
      encrypted.length = encodedLength 3 2 ∧
      decryptBuffer checksumCrypto encrypted
        ⟨.chacha20Poly1305, List.replicate 32 7, none, some false⟩ none = .ok [1, 2, 3] := by
  have hok : (encryptBuffer checksumCrypto zeroSalt [1, 2, 3]
      ⟨.aes256Gcm, List.replicate 32 7, some (.integer 2), none⟩ none).isOk = true := by
    decide +kernel
  cases h : encryptBuffer checksumCrypto zeroSalt [1, 2, 3]
      ⟨.aes256Gcm, List.replicate 32 7, some (.integer 2), none⟩ none with
  | error e => rw [h] at hok; cases hok
  | ok encrypted =>
    obtain ⟨⟨frameSizeBytes, hsize, hlength⟩, hread⟩ := decryptBuffer_encryptBuffer checksumCrypto
      (Cipher.checksum_correct _ _) zeroSalt _ _ none encrypted h
    have htwo : frameSizeBytes.val = 2 := by
      cases hsize
      rfl
    rw [htwo] at hlength
    exact ⟨encrypted, rfl, hlength, hread _ rfl⟩

end PipeX.EncryptionFormat
