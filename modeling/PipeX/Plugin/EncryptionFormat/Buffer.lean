/-
  PipeX.Plugin.EncryptionFormat.Buffer

  `encryptBuffer` and `decryptBuffer` of `src/plugin/encryptionFormat.ts`, and
  for each of them the one lemma its callers use.

  Both loops run over the bytes that are still ahead: `rest` is
  `data.subarray(offset)` in the encoder and `data.subarray(position)` in the
  decoder.
-/
import PipeX.Lib.Chunked
import PipeX.Plugin.EncryptionFormat.Format

namespace PipeX.EncryptionFormat

open Chunked Aead

/-! ## Encryption -/

section Encrypt

variable (crypto : Crypto) (algorithm : EncryptionAlgorithm) (frameSizeBytes : FrameSize)
  (derivedKey header : Bytes)

/-- One pass of the `for` loop: seal the next full frame, or what is left. -/
def encryptPass (sequence : Nat) (rest : Bytes) :
    Emit SealedFrame JsError (Progress Nat UInt8) := do
  let frame ← encryptFrame crypto (rest.take frameSizeBytes.val) dataFrame sequence algorithm
    derivedKey header
  Emit.push frame
  return .done (sequence + 1) (rest.drop frameSizeBytes.val)

/-- The `for` loop of `encryptBuffer`; its outputs are `frames.push`. -/
def encryptLoop : InputLoop Nat UInt8 SealedFrame JsError where
  body := encryptPass crypto algorithm frameSizeBytes derivedKey header
  consumes := by
    intro s x xs s' rest h
    simp only [encryptPass] at h
    obtain ⟨frame, -, h, -⟩ := Emit.bind_eq_ok h
    obtain ⟨-, -, h, -⟩ := Emit.bind_eq_ok h
    cases h
    have hpos := frameSizeBytes.property.1
    simp only [List.length_drop, List.length_cons]
    omega

/-- All frames of a message: its data frames and the empty final frame. -/
def encryptFrames (data : Bytes) : Emit SealedFrame JsError Unit := do
  let sequence ← (encryptLoop crypto algorithm frameSizeBytes derivedKey header).run 0 data
  let frame ← encryptFrame crypto [] finalFrame sequence algorithm derivedKey header
  Emit.push frame

end Encrypt

/-- What an encryptor writes: the header, or a frame with the cipher call behind it. -/
inductive Written where
  | header (bytes : Bytes)
  | frame (frame : SealedFrame)
deriving DecidableEq, Repr

namespace Written

def bytes : Written → Bytes
  | .header h => h
  | .frame f => f.bytes

def call : Written → Option (SealCall EncryptionAlgorithm)
  | .header _ => none
  | .frame f => some f.call

end Written

/-- The variables of `encryptBuffer` in front of its `for` loop. -/
structure PacketStart where
  frameSizeBytes : FrameSize
  outputLength : Nat
  header : Bytes
  derivedKey : Bytes

/-- `encryptBuffer` up to its `for` loop; `contextLimits` is `context?.limits`. -/
def startPacket (crypto : Crypto) (salt : Salt) (data : Bytes)
    (options : EncryptionFormatOptions) (contextLimits : Option EngineLimits) :
    Except JsError PacketStart := do
  assertEncryptionKey options.key
  let limits := limitsFor contextLimits
  if data.length > limits.maxInputBytes then
    throw (plainError s!"[PipeX] Encryption input exceeds {limits.maxInputBytes} bytes")
  let frameSizeBytes ← resolveFrameSize options limits
  if dataFrameCount data.length frameSizeBytes.val > limits.maxFrames then
    throw (plainError s!"[PipeX] Encryption frame count exceeds {limits.maxFrames}")
  let outputLength := encodedLength data.length frameSizeBytes.val
  if outputLength > limits.maxOutputBytes then
    throw (plainError s!"[PipeX] Encryption output exceeds {limits.maxOutputBytes} bytes")
  let header := buildHeader options.algorithm frameSizeBytes salt
  let parsed ← parseHeader header limits
  return ⟨frameSizeBytes, outputLength, header, deriveKey crypto options.key parsed⟩

/-- What `encryptBuffer` has in hand before its last line, `Buffer.concat`. -/
structure Packet where
  header : Bytes
  frames : List SealedFrame
  outputLength : Nat
deriving DecidableEq, Repr

/-- `encryptBuffer` up to its last line. -/
def encryptPacket (crypto : Crypto) (salt : Salt) (data : Bytes)
    (options : EncryptionFormatOptions) (contextLimits : Option EngineLimits) :
    Except JsError Packet := do
  let start ← startPacket crypto salt data options contextLimits
  let frames := encryptFrames crypto options.algorithm start.frameSizeBytes start.derivedKey
    start.header data
  frames.result
  return ⟨start.header, frames.out, start.outputLength⟩

def encryptBuffer (crypto : Crypto) (salt : Salt) (data : Bytes)
    (options : EncryptionFormatOptions) (contextLimits : Option EngineLimits) :
    Except JsError Bytes := do
  let packet ← encryptPacket crypto salt data options contextLimits
  return bufferConcat (packet.header :: packet.frames.map SealedFrame.bytes) packet.outputLength

/-! ## Decryption -/

/-- The locals of the decryption loop. -/
structure DecryptState where
  plaintext : List Bytes
  plaintextBytes : Nat
  expectedSequence : Nat
  dataFrames : Nat
  finalSeen : Bool
deriving DecidableEq, Repr

def DecryptState.init : DecryptState := ⟨[], 0, 0, 0, false⟩

/-- The locals after a frame of the given type was opened. -/
def DecryptState.afterFrame (s : DecryptState) (type : Nat) (restored : Bytes) : DecryptState :=
  if type = finalFrame then
    { s with finalSeen := true, expectedSequence := s.expectedSequence + 1 }
  else
    { s with
      dataFrames := s.dataFrames + 1
      plaintextBytes := s.plaintextBytes + restored.length
      plaintext := s.plaintext ++ [restored]
      expectedSequence := s.expectedSequence + 1 }

section Decrypt

variable (crypto : Crypto) (limits : FormatLimits) (header : ParsedHeader) (derivedKey : Bytes)

/-- One pass of the `while` loop over the bytes from `position` on. -/
def decryptPass (s : DecryptState) (rest : Bytes) : Except JsError (DecryptState × Bytes) := do
  if s.finalSeen ∨ rest.length < frameHeaderLength then
    throw (plainError "[PipeX] Decryption failed: incomplete or trailing frame")
  let frameHeader := rest.take frameHeaderLength
  let rest := rest.drop frameHeaderLength
  checkFrameHeader limits header s.expectedSequence s.dataFrames s.plaintextBytes frameHeader
  let ciphertextBytes := readCiphertextBytes frameHeader
  if rest.length < ciphertextBytes + tagLength then
    throw (plainError "[PipeX] Decryption failed: incomplete frame")
  let ciphertext := rest.take ciphertextBytes
  let rest := rest.drop ciphertextBytes
  let tag := rest.take tagLength
  let rest := rest.drop tagLength
  let restored ← decryptFrame crypto ciphertext tag frameHeader (readFrameSequence frameHeader)
    header.algorithm derivedKey header.bytes
  return (s.afterFrame (readFrameType frameHeader) restored, rest)

/-- What a pass that goes through has read: one whole frame in front of the rest. -/
theorem decryptPass_ok {s s' : DecryptState} {rest rest' : Bytes}
    (h : decryptPass crypto limits header derivedKey s rest = .ok (s', rest')) :
    s.finalSeen = false ∧ ∃ frameHeader ciphertext tag restored,
      rest = frameHeader ++ ciphertext ++ tag ++ rest' ∧
      frameHeader.length = frameHeaderLength ∧
      ciphertext.length = readCiphertextBytes frameHeader ∧
      tag.length = tagLength ∧
      checkFrameHeader limits header s.expectedSequence s.dataFrames s.plaintextBytes
        frameHeader = .ok () ∧
      decryptFrame crypto ciphertext tag frameHeader (readFrameSequence frameHeader)
        header.algorithm derivedKey header.bytes = .ok restored ∧
      s' = s.afterFrame (readFrameType frameHeader) restored := by
  simp only [decryptPass, bind, Except.bind, pure, Except.pure, throw, throwThe,
    MonadExceptOf.throw] at h
  -- each branch that throws is none of a pass that returns
  split at h
  · cases h
  rename_i hseen
  simp only [not_or, Bool.not_eq_true, Nat.not_lt] at hseen
  split at h
  · cases h
  rename_i hcheck
  split at h
  · cases h
  rename_i hbody
  split at h
  · cases h
  rename_i restored hopen
  cases h
  have hlen : (rest.drop frameHeaderLength).length = rest.length - frameHeaderLength :=
    List.length_drop
  refine ⟨hseen.1, _, _, _, restored, ?_, ?_, ?_, ?_, hcheck, hopen, rfl⟩
  · simp only [List.append_assoc, List.take_append_drop]
  · rw [List.length_take]
    omega
  · rw [List.length_take]
    omega
  · rw [List.length_take, List.length_drop]
    omega

/-- A pass over a whole frame that passes the header checks does what the cipher
    says. -/
theorem decryptPass_append {s : DecryptState} {frameHeader ciphertext tag rest : Bytes}
    (hseen : s.finalSeen = false) (hfh : frameHeader.length = frameHeaderLength)
    (hct : ciphertext.length = readCiphertextBytes frameHeader) (htag : tag.length = tagLength)
    (hcheck : checkFrameHeader limits header s.expectedSequence s.dataFrames s.plaintextBytes
      frameHeader = .ok ()) :
    decryptPass crypto limits header derivedKey s
        (frameHeader ++ (ciphertext ++ (tag ++ rest))) =
      (decryptFrame crypto ciphertext tag frameHeader (readFrameSequence frameHeader)
        header.algorithm derivedKey header.bytes).map fun restored =>
          (s.afterFrame (readFrameType frameHeader) restored, rest) := by
  have hlong : ¬ (s.finalSeen = true ∨
      (frameHeader ++ (ciphertext ++ (tag ++ rest))).length < frameHeaderLength) := by
    rw [hseen, List.length_append, hfh]
    simp
  have hbody : ¬ (ciphertext ++ (tag ++ rest)).length <
      readCiphertextBytes frameHeader + tagLength := by
    simp only [List.length_append, hct, htag]
    omega
  -- the slices of the code are the parts of the frame
  have htake : (frameHeader ++ (ciphertext ++ (tag ++ rest))).take frameHeaderLength =
      frameHeader := List.take_left' hfh
  have hdrop : (frameHeader ++ (ciphertext ++ (tag ++ rest))).drop frameHeaderLength =
      ciphertext ++ (tag ++ rest) := List.drop_left' hfh
  have hct' : (ciphertext ++ (tag ++ rest)).take (readCiphertextBytes frameHeader) = ciphertext :=
    List.take_left' hct
  have hdrop' : (ciphertext ++ (tag ++ rest)).drop (readCiphertextBytes frameHeader) =
      tag ++ rest := List.drop_left' hct
  have htag' : (tag ++ rest).take tagLength = tag := List.take_left' htag
  have hrest' : (tag ++ rest).drop tagLength = rest := List.drop_left' htag
  simp only [decryptPass, bind, Except.bind, pure, Except.pure, if_neg hlong, htake, hdrop,
    hcheck, if_neg hbody, hct', hdrop', htag', hrest']
  cases decryptFrame crypto ciphertext tag frameHeader (readFrameSequence frameHeader)
    header.algorithm derivedKey header.bytes <;> rfl

theorem decryptPass_rest {s s' : DecryptState} {rest rest' : Bytes}
    (h : decryptPass crypto limits header derivedKey s rest = .ok (s', rest')) :
    rest'.length + frameOverhead ≤ rest.length := by
  obtain ⟨-, frameHeader, ciphertext, tag, restored, hrest, hfh, -, htag, -⟩ :=
    decryptPass_ok crypto limits header derivedKey h
  have hlen := congrArg List.length hrest
  simp only [List.length_append] at hlen
  simp only [frameOverhead]
  omega

/-- The decryption loop; plaintext stays in the state, nothing is written. -/
def decryptLoop : InputLoop DecryptState UInt8 Empty JsError where
  body s rest := Emit.ofExcept
    ((decryptPass crypto limits header derivedKey s rest).map fun p => .done p.1 p.2)
  consumes := by
    intro s x xs s' rest h
    simp only [Emit.ofExcept_result] at h
    cases hp : decryptPass crypto limits header derivedKey s (x :: xs) with
    | error e => rw [hp] at h; cases h
    | ok p =>
      rw [hp] at h
      cases h
      have hlen := decryptPass_rest crypto limits header derivedKey hp
      simp only [List.length_cons, frameOverhead, frameHeaderLength, tagLength] at hlen
      omega

/-- A pass that goes through leaves the loop with what it left. -/
theorem decryptLoop_run_ok {t t₁ : DecryptState} {rest rest₁ : Bytes} (hrest : rest ≠ [])
    (h : decryptPass crypto limits header derivedKey t rest = .ok (t₁, rest₁)) :
    (decryptLoop crypto limits header derivedKey).run t rest =
      (decryptLoop crypto limits header derivedKey).run t₁ rest₁ := by
  rw [InputLoop.run_of_ne_nil _ t hrest]
  change Emit.ofExcept ((decryptPass crypto limits header derivedKey t rest).map _) >>= _ = _
  rw [h]
  rfl

theorem decryptLoop_run_error {t : DecryptState} {rest : Bytes} {e : JsError} (hrest : rest ≠ [])
    (h : decryptPass crypto limits header derivedKey t rest = .error e) :
    (decryptLoop crypto limits header derivedKey).run t rest = Emit.fail e := by
  rw [InputLoop.run_of_ne_nil _ t hrest]
  change Emit.ofExcept ((decryptPass crypto limits header derivedKey t rest).map _) >>= _ = _
  rw [h]
  rfl

/-- Induction along the decryption loop, by what its passes come to. -/
theorem decryptLoop_induct {motive : DecryptState → Bytes → Prop} (nil : ∀ t, motive t [])
    (error : ∀ t rest e, rest ≠ [] →
      decryptPass crypto limits header derivedKey t rest = .error e → motive t rest)
    (ok : ∀ t rest t₁ rest₁, rest ≠ [] →
      decryptPass crypto limits header derivedKey t rest = .ok (t₁, rest₁) → motive t₁ rest₁ →
      motive t rest) (t : DecryptState) (rest : Bytes) : motive t rest := by
  induction t, rest using (decryptLoop crypto limits header derivedKey).induct with
  | nil t => exact nil t
  | pass t rest hrest ih =>
    cases hpass : decryptPass crypto limits header derivedKey t rest with
    | error e => exact error t rest e hrest hpass
    | ok q =>
      refine ok t rest q.1 q.2 hrest hpass (ih q.1 q.2 ?_)
      change (Emit.ofExcept ((decryptPass crypto limits header derivedKey t rest).map _)).result = _
      rw [hpass]
      rfl

/-- A pass keeps count of the plaintext it collects. -/
theorem decryptPass_plaintextBytes {rest rest' : Bytes} {t t' : DecryptState}
    (h : decryptPass crypto limits header derivedKey t rest = .ok (t', rest'))
    (ht : t.plaintextBytes = t.plaintext.flatten.length) :
    t'.plaintextBytes = t'.plaintext.flatten.length := by
  obtain ⟨-, frameHeader, ciphertext, tag, restored, -, -, -, -, -, -, rfl⟩ :=
    decryptPass_ok crypto limits header derivedKey h
  simp only [DecryptState.afterFrame]
  split
  · exact ht
  · simp [ht]

theorem decryptLoop_plaintextBytes (t : DecryptState) (rest : Bytes) {t' : DecryptState}
    (h : ((decryptLoop crypto limits header derivedKey).run t rest).result = .ok t')
    (ht : t.plaintextBytes = t.plaintext.flatten.length) :
    t'.plaintextBytes = t'.plaintext.flatten.length := by
  induction t, rest using decryptLoop_induct crypto limits header derivedKey with
  | nil t => cases h; exact ht
  | error t rest e hrest hpass =>
    rw [decryptLoop_run_error crypto limits header derivedKey hrest hpass] at h
    cases h
  | ok t rest t₁ rest₁ hrest hpass ih =>
    rw [decryptLoop_run_ok crypto limits header derivedKey hrest hpass] at h
    exact ih h (decryptPass_plaintextBytes crypto limits header derivedKey hpass ht)

end Decrypt

/-- `decryptBuffer` on a packet that is not taken for a legacy one. -/
def decryptFramed (crypto : Crypto) (data key : Bytes) (limits : FormatLimits) :
    Except JsError Bytes := do
  if data.length < globalHeaderLength then
    throw (plainError "[PipeX] Decryption failed: incomplete framed header")
  let header ← parseHeader (data.take globalHeaderLength) limits
  let derivedKey := deriveKey crypto key header
  let s ← ((decryptLoop crypto limits header derivedKey).run DecryptState.init
    (data.drop globalHeaderLength)).result
  if s.finalSeen = false then
    throw (plainError "[PipeX] Decryption failed: missing authenticated final frame")
  return bufferConcat s.plaintext s.plaintextBytes

/-- `contextLimits` is `context?.limits`. -/
def decryptBuffer (crypto : Crypto) (data : Bytes) (options : EncryptionFormatOptions)
    (contextLimits : Option EngineLimits) : Except JsError Bytes := do
  assertEncryptionKey options.key
  let limits := limitsFor contextLimits
  if data.length > limits.maxInputBytes then
    throw (plainError s!"[PipeX] Decryption input exceeds {limits.maxInputBytes} bytes")
  -- Legacy packets always start with algorithm id 1 or 2; the magic prefix byte is
  -- reserved, so a truncated framed packet is never taken for a legacy one.
  if data.length = 0 ∨ (isFramedEncryption data = false ∧ data.head? ≠ magic.head?) then
    if options.allowLegacyDecrypt ≠ some true then
      throw (plainError "[PipeX] Decryption failed: legacy format disabled")
    decryptLegacy crypto data options.key limits
  else
    decryptFramed crypto data options.key limits

/-- `decryptFramed` behind a complete global header. -/
theorem decryptFramed_append (crypto : Crypto) {header : Bytes} (hlen : header.length = globalHeaderLength)
    (rest key : Bytes) (limits : FormatLimits) :
    decryptFramed crypto (header ++ rest) key limits =
      parseHeader header limits >>= fun parsedHeader =>
        ((decryptLoop crypto limits parsedHeader (deriveKey crypto key parsedHeader)).run
          DecryptState.init rest).result >>= fun s =>
            if s.finalSeen = false then
              .error (plainError "[PipeX] Decryption failed: missing authenticated final frame")
            else .ok (bufferConcat s.plaintext s.plaintextBytes) := by
  have hlong : ¬ (header ++ rest).length < globalHeaderLength := by
    rw [List.length_append]
    omega
  simp only [decryptFramed, if_neg hlong, List.take_left' hlen, List.drop_left' hlen]
  rfl

/-- `decryptBuffer` behind its checks on the key and the input length. -/
theorem decryptBuffer_eq (crypto : Crypto) (data : Bytes) (options : EncryptionFormatOptions)
    (contextLimits : Option EngineLimits) :
    decryptBuffer crypto data options contextLimits =
      assertEncryptionKey options.key >>= fun _ =>
        if data.length > (limitsFor contextLimits).maxInputBytes then
          .error (plainError
            s!"[PipeX] Decryption input exceeds {(limitsFor contextLimits).maxInputBytes} bytes")
        else if data.head? = magic.head? then
          decryptFramed crypto data options.key (limitsFor contextLimits)
        else if options.allowLegacyDecrypt ≠ some true then
          .error (plainError "[PipeX] Decryption failed: legacy format disabled")
        else
          decryptLegacy crypto data options.key (limitsFor contextLimits) := by
  -- only the first byte decides
  have hframed : (data.length = 0 ∨ (isFramedEncryption data = false ∧
      data.head? ≠ magic.head?)) ↔ data.head? ≠ magic.head? := by
    cases data with
    | nil => simp [magic]
    | cons x xs =>
      constructor
      · rintro (h | ⟨-, h⟩)
        · cases h
        · exact h
      · intro h
        refine .inr ⟨?_, h⟩
        simp only [isFramedEncryption, Bool.and_eq_false_iff, decide_eq_false_iff_not]
        refine .inr fun htake => h ?_
        rw [← htake]
        rfl
  simp only [decryptBuffer, hframed]
  cases assertEncryptionKey options.key with
  | error e => rfl
  | ok _ =>
    -- the checks in the order of the code
    by_cases hlim : data.length > (limitsFor contextLimits).maxInputBytes
    · simp only [if_pos hlim]
      rfl
    · by_cases hhead : data.head? = magic.head?
      · simp only [if_neg hlim, hhead, ne_eq, not_true_eq_false, if_true, if_false]
      · by_cases hgate : options.allowLegacyDecrypt = some true
        · simp only [if_neg hlim, hhead, hgate, ne_eq, not_true_eq_false, not_false_eq_true, if_true,
            if_false]
        · simp only [if_neg hlim, hhead, hgate, ne_eq, not_false_eq_true, if_true, if_false]
          rfl

end PipeX.EncryptionFormat
