/-
  PipeX.Plugin.EncryptionFormat.Stream

  `createEncryptionStream` and `createDecryptionStream` of
  `src/plugin/encryptionFormat.ts`.  The variables that the source's closures
  capture once are the fields of `EncryptionStream` and `DecryptionStream`; those
  that change are the transform's state.

  A buffer with a fill counter (`pending` and `pendingBytes`, `globalHeader` and
  `globalHeaderBytes`, and so on) is a `Partial`.  Which of the decoder's
  buffers is being filled is what the source reads off `parsedHeader`,
  `frameHeaderBytes` and `frameBody`; the model has one constructor of `Stage`
  for each of the three answers.

  The encoder writes its frames with the cipher calls behind them (`writer`); the
  stream pushes their bytes (`machine`).
-/
import PipeX.Lib.Chunked
import PipeX.Plugin.EncryptionFormat.Buffer

namespace PipeX.EncryptionFormat

open Chunked Aead

/-! ## Encryption -/

/-- What `createEncryptionStream` fixes for the life of the stream. -/
structure EncryptionStream where
  algorithm : EncryptionAlgorithm
  limits : FormatLimits
  frameSizeBytes : FrameSize
  header : Bytes
  derivedKey : Bytes

/-- The variables of the copy loop. -/
structure PendingFrame (n : Nat) where
  pending : Partial UInt8 n
  dataFrames : Nat
  sequence : Nat

/-- The variables of an encryption stream. -/
structure EncryptionState (n : Nat) where
  inputBytes : Nat
  headerSent : Bool
  frames : PendingFrame n

namespace EncryptionStream

variable (crypto : Crypto) (stream : EncryptionStream)

def noPending : Partial UInt8 stream.frameSizeBytes.val := Partial.empty stream.frameSizeBytes.property.1

/-- `++dataFrames > limits.maxFrames`, and the sealed frame pushed. -/
def pushDataFrame (plaintext : Bytes) (dataFrames sequence : Nat) :
    Emit Written JsError Unit := do
  if dataFrames + 1 > stream.limits.maxFrames then
    Emit.fail (plainError s!"[PipeX] Encryption frame count exceeds {stream.limits.maxFrames}")
  let frame ← encryptFrame crypto plaintext dataFrame sequence stream.algorithm stream.derivedKey
    stream.header
  Emit.push (.frame frame)

/-- One pass of the copy loop in `transform`. -/
def copyPass (s : PendingFrame stream.frameSizeBytes.val) (input : Bytes) :
    Emit Written JsError (Progress (PendingFrame stream.frameSizeBytes.val) UInt8) :=
  match s.pending.fill input with
  | .more p => pure (.more { s with pending := p })
  | .full plaintext rest => do
    pushDataFrame crypto stream plaintext s.dataFrames s.sequence
    return .done ⟨stream.noPending, s.dataFrames + 1, s.sequence + 1⟩ rest

/-- The `while` loop of `transform`. -/
def copyLoop : InputLoop (PendingFrame stream.frameSizeBytes.val) UInt8 Written JsError where
  body := copyPass crypto stream
  consumes := by
    intro s x xs s' rest h
    simp only [copyPass] at h
    split at h
    · cases h
    · rename_i plaintext rest₀ hfill
      obtain ⟨-, -, h, -⟩ := Emit.bind_eq_ok h
      cases h
      exact Partial.length_rest_lt hfill

/-- `transform(chunk)`. -/
def transform (s : EncryptionState stream.frameSizeBytes.val) (input : Bytes) :
    Emit Written JsError (EncryptionState stream.frameSizeBytes.val) := do
  if (input.length : Int) > (stream.limits.maxInputBytes : Int) - s.inputBytes then
    Emit.fail (plainError
      s!"[PipeX] Encryption input exceeds {stream.limits.maxInputBytes} bytes")
  let prospectiveInput := s.inputBytes + input.length
  if dataFrameCount prospectiveInput stream.frameSizeBytes.val > stream.limits.maxFrames then
    Emit.fail (plainError s!"[PipeX] Encryption frame count exceeds {stream.limits.maxFrames}")
  if encodedLength prospectiveInput stream.frameSizeBytes.val > stream.limits.maxOutputBytes then
    Emit.fail (plainError
      s!"[PipeX] Encryption output exceeds {stream.limits.maxOutputBytes} bytes")
  if s.headerSent = false then
    Emit.push (.header stream.header)
  let frames ← (copyLoop crypto stream).run s.frames input
  return ⟨prospectiveInput, true, frames⟩

/-- The frames that `flush` pushes: the short last data frame and the final frame. -/
def flushFrames (s : PendingFrame stream.frameSizeBytes.val) : Emit Written JsError Unit := do
  let sequence ←
    if s.pending.filled.length > 0 then do
      pushDataFrame crypto stream s.pending.filled s.dataFrames s.sequence
      pure (s.sequence + 1)
    else
      pure s.sequence
  let frame ← encryptFrame crypto [] finalFrame sequence stream.algorithm stream.derivedKey
    stream.header
  Emit.push (.frame frame)

/-- `flush()`. -/
def flush (s : EncryptionState stream.frameSizeBytes.val) : Emit Written JsError Unit := do
  if s.headerSent = false then
    Emit.push (.header stream.header)
  flushFrames crypto stream s.frames

/-- The stream, with the calls behind the bytes that it pushes. -/
def writer : Transform (EncryptionState stream.frameSizeBytes.val) Bytes Written JsError where
  transform := transform crypto stream
  flush := flush crypto stream

/-- What it pushes. -/
def machine : Transform (EncryptionState stream.frameSizeBytes.val) Bytes Bytes JsError :=
  (writer crypto stream).mapOut Written.bytes

def start : EncryptionState stream.frameSizeBytes.val := ⟨0, false, ⟨stream.noPending, 0, 0⟩⟩

end EncryptionStream

/-- `contextLimits` is `context?.limits`. -/
def createEncryptionStream (crypto : Crypto) (salt : Salt) (options : EncryptionFormatOptions)
    (contextLimits : Option EngineLimits) : Except JsError EncryptionStream := do
  assertEncryptionKey options.key
  let limits := limitsFor contextLimits
  let frameSizeBytes ← resolveFrameSize options limits
  if encodedLength 0 frameSizeBytes.val > limits.maxOutputBytes then
    throw (plainError s!"[PipeX] Encryption output exceeds {limits.maxOutputBytes} bytes")
  let header := buildHeader options.algorithm frameSizeBytes salt
  let parsed ← parseHeader header limits
  let derivedKey := deriveKey crypto options.key parsed
  return ⟨options.algorithm, limits, frameSizeBytes, header, derivedKey⟩

/-- Construct the stream, hand it the chunks and end it. -/
def encryptStream (crypto : Crypto) (salt : Salt) (options : EncryptionFormatOptions)
    (contextLimits : Option EngineLimits) (chunks : List Bytes) : Emit Bytes JsError Unit := do
  let stream ← createEncryptionStream crypto salt options contextLimits
  (stream.machine crypto).complete stream.start chunks

/-! ## Decryption -/

/-- What `createDecryptionStream` fixes for the life of the stream. -/
structure DecryptionStream where
  key : Bytes
  allowLegacyDecrypt : Option Bool
  limits : FormatLimits

/-- The buffer that is being filled, and what is known by then. -/
inductive Stage where
  | globalHeader (received : Partial UInt8 globalHeaderLength)
  | frameHeader (parsedHeader : ParsedHeader) (derivedKey : Bytes)
      (received : Partial UInt8 frameHeaderLength)
  | frameBody (parsedHeader : ParsedHeader) (derivedKey frameHeader : Bytes)
      (received : Partial UInt8 (readCiphertextBytes frameHeader + tagLength))

/-- The variables of `consumeFramed`. -/
structure FramedState where
  stage : Stage
  totalOutput : Nat
  expectedSequence : Nat
  dataFrames : Nat
  finalSeen : Bool

inductive StreamFormat where
  | unknown
  | framed
  | legacy
deriving DecidableEq, Repr

/-- The variables of a decryption stream. -/
structure DecryptionState where
  format : StreamFormat
  totalInput : Nat
  framed : FramedState
  legacyChunks : List Bytes

def noFrameHeader : Partial UInt8 frameHeaderLength := Partial.empty (by decide)

/-- `Buffer.alloc(ciphertextBytes + TAG_LENGTH)`. -/
def noFrameBody (frameHeader : Bytes) :
    Partial UInt8 (readCiphertextBytes frameHeader + tagLength) :=
  Partial.empty (Nat.succ_pos _)

/-- The variables after a frame of the given type was opened. -/
def FramedState.afterFrame (s : FramedState) (parsedHeader : ParsedHeader)
    (derivedKey : Bytes) (type : Nat) (restored : Bytes) : FramedState :=
  if type = finalFrame then
    { s with
      finalSeen := true
      expectedSequence := s.expectedSequence + 1
      stage := .frameHeader parsedHeader derivedKey noFrameHeader }
  else
    { s with
      dataFrames := s.dataFrames + 1
      totalOutput := s.totalOutput + restored.length
      expectedSequence := s.expectedSequence + 1
      stage := .frameHeader parsedHeader derivedKey noFrameHeader }

namespace DecryptionStream

variable (crypto : Crypto) (stream : DecryptionStream)

/-- The second half of a pass: fill the frame body and open the frame. -/
def bodyPass (s : FramedState) (parsedHeader : ParsedHeader) (derivedKey frameHeader : Bytes)
    (received : Partial UInt8 (readCiphertextBytes frameHeader + tagLength)) (input : Bytes) :
    Emit Bytes JsError (Progress FramedState UInt8) :=
  match received.fill input with
  | .more p => pure (.more { s with stage := .frameBody parsedHeader derivedKey frameHeader p })
  | .full body rest => do
    let ciphertextBytes := readCiphertextBytes frameHeader
    let type := readFrameType frameHeader
    let restored ← decryptFrame crypto (body.take ciphertextBytes) (body.drop ciphertextBytes)
      frameHeader (readFrameSequence frameHeader) parsedHeader.algorithm derivedKey
      parsedHeader.bytes
    if type ≠ finalFrame then
      Emit.push restored
    return .done (s.afterFrame parsedHeader derivedKey type restored) rest

/-- One pass of the `while` loop of `consumeFramed`. -/
def framedPass (s : FramedState) (input : Bytes) : Emit Bytes JsError (Progress FramedState UInt8) :=
  if s.finalSeen then
    Emit.fail (plainError "[PipeX] Decryption failed: trailing data after final frame")
  else
    match s.stage with
    | .globalHeader received =>
      match received.fill input with
      | .more p => pure (.more { s with stage := .globalHeader p })
      | .full bytes rest => do
        let parsedHeader ← parseHeader bytes stream.limits
        let derivedKey := deriveKey crypto stream.key parsedHeader
        return .done { s with stage := .frameHeader parsedHeader derivedKey noFrameHeader } rest
    | .frameHeader parsedHeader derivedKey received =>
      match received.fill input with
      | .more p => pure (.more { s with stage := .frameHeader parsedHeader derivedKey p })
      | .full frameHeader rest => do
        checkFrameHeader stream.limits parsedHeader s.expectedSequence s.dataFrames s.totalOutput
          frameHeader
        bodyPass crypto s parsedHeader derivedKey frameHeader (noFrameBody frameHeader) rest
    | .frameBody parsedHeader derivedKey frameHeader received =>
      bodyPass crypto s parsedHeader derivedKey frameHeader received input

theorem bodyPass_consumes {s s' : FramedState} {parsedHeader : ParsedHeader}
    {derivedKey frameHeader : Bytes}
    {received : Partial UInt8 (readCiphertextBytes frameHeader + tagLength)}
    {input rest : Bytes}
    (h : (bodyPass crypto s parsedHeader derivedKey frameHeader received input).result
      = .ok (.done s' rest)) : rest.length < input.length := by
  simp only [bodyPass] at h
  split at h
  · cases h
  · rename_i body rest₀ hfill
    obtain ⟨restored, -, h, -⟩ := Emit.bind_eq_ok h
    have hrest : rest = rest₀ := by
      split at h
      · obtain ⟨-, -, h, -⟩ := Emit.bind_eq_ok h
        cases h
        rfl
      · cases h
        rfl
    subst hrest
    cases input with
    | nil =>
      have hshort := received.short
      rcases Partial.fill_cases received [] with ⟨_, hm⟩ | ⟨_, _, hf, hlen, heq⟩
      · rw [hm] at hfill; cases hfill
      · have := congrArg List.length heq
        simp only [List.length_append, List.length_nil] at this
        omega
    | cons x xs => exact Nat.lt_succ_of_le (Partial.length_rest_lt hfill)

/-- The `while` loop of `consumeFramed`. -/
def framedLoop : InputLoop FramedState UInt8 Bytes JsError where
  body := framedPass crypto stream
  consumes := by
    intro s x xs s' rest h
    simp only [framedPass] at h
    split at h
    · cases h
    split at h
    · split at h
      · cases h
      · rename_i hfill
        obtain ⟨parsedHeader, -, h, -⟩ := Emit.bind_eq_ok h
        cases h
        exact Partial.length_rest_lt hfill
    · split at h
      · cases h
      · rename_i hfill
        obtain ⟨-, -, h, -⟩ := Emit.bind_eq_ok h
        have := bodyPass_consumes crypto h
        have := Partial.length_rest_lt hfill
        omega
    · exact Nat.le_of_lt_succ (bodyPass_consumes crypto h)

/-- `transform(chunk)`. -/
def transform (s : DecryptionState) (input : Bytes) : Emit Bytes JsError DecryptionState := do
  if (input.length : Int) > (stream.limits.maxInputBytes : Int) - s.totalInput then
    Emit.fail (plainError
      s!"[PipeX] Decryption input exceeds {stream.limits.maxInputBytes} bytes")
  let totalInput := s.totalInput + input.length
  if input.length = 0 then
    return { s with totalInput }
  let format ←
    if s.format = .unknown then
      if input.head? = magic.head? then
        pure StreamFormat.framed
      else if stream.allowLegacyDecrypt = some false then
        Emit.fail (plainError "[PipeX] Decryption failed: legacy format disabled")
      else
        pure StreamFormat.legacy
    else
      pure s.format
  if format = .legacy then
    return { s with totalInput, format, legacyChunks := s.legacyChunks ++ [input] }
  else
    let framed ← (framedLoop crypto stream).run s.framed input
    return { s with totalInput, format, framed }

/-- Whether `consumeFramed` stands right behind the final frame. -/
def atEnd (s : FramedState) : Except JsError Unit :=
  match s.stage with
  | .frameHeader _ _ received =>
    if received.filled.length ≠ 0 then
      .error (plainError "[PipeX] Decryption failed: incomplete encrypted stream")
    else if s.finalSeen = false then
      .error (plainError "[PipeX] Decryption failed: missing authenticated final frame")
    else
      .ok ()
  | _ => .error (plainError "[PipeX] Decryption failed: incomplete encrypted stream")

/-- `flush()`. -/
def flush (s : DecryptionState) : Emit Bytes JsError Unit :=
  match s.format with
  | .legacy => do
    let restored ← decryptLegacy crypto (bufferConcat s.legacyChunks s.totalInput) stream.key
      stream.limits
    Emit.push restored
  | .framed => Emit.ofExcept (atEnd s.framed)
  | .unknown =>
    Emit.fail (plainError "[PipeX] Decryption failed: incomplete encrypted stream")

def machine : Transform DecryptionState Bytes Bytes JsError where
  transform := transform crypto stream
  flush := flush crypto stream

end DecryptionStream

def FramedState.start : FramedState := ⟨.globalHeader (Partial.empty (by decide)), 0, 0, 0, false⟩

def DecryptionState.start : DecryptionState := ⟨.unknown, 0, FramedState.start, []⟩

/-- `contextLimits` is `context?.limits`. -/
def createDecryptionStream (options : EncryptionFormatOptions)
    (contextLimits : Option EngineLimits) : Except JsError DecryptionStream := do
  assertEncryptionKey options.key
  return ⟨options.key, options.allowLegacyDecrypt, limitsFor contextLimits⟩

/-- Construct the stream and hand it the chunks. -/
def feedDecryptStream (crypto : Crypto) (options : EncryptionFormatOptions)
    (contextLimits : Option EngineLimits) (chunks : List Bytes) :
    Emit Bytes JsError DecryptionState := do
  let stream ← createDecryptionStream options contextLimits
  (stream.machine crypto).feed DecryptionState.start chunks

/-- Construct the stream, hand it the chunks and end it. -/
def decryptStream (crypto : Crypto) (options : EncryptionFormatOptions)
    (contextLimits : Option EngineLimits) (chunks : List Bytes) : Emit Bytes JsError Unit := do
  let stream ← createDecryptionStream options contextLimits
  (stream.machine crypto).complete DecryptionState.start chunks

end PipeX.EncryptionFormat
