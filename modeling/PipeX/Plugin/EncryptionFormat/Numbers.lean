/-
  PipeX.Plugin.EncryptionFormat.Numbers

  The encoders of `src/plugin/encryptionFormat.ts` over the numbers of JavaScript: every
  size is a double, every field and every comparison of sizes is noted.

  `encryptBuffer_refines` and `encryptStream_refines` say that they are the encoders over
  integers, and that all that is noted is in order.
-/
import PipeX.Core.DataEngine.Limits
import PipeX.Plugin.EncryptionFormat.Stream
import PipeX.Plugin.WireFields

namespace PipeX.EncryptionFormat.Numbers

open Chunked BigEndian Aead Shadowed Wire

variable {ο : Type}

/-! ## Sizes -/

/-- `options.frameSizeBytes ?? Math.min(DEFAULT_PLAINTEXT_FRAME_BYTES, capacity)`.  One
    number that is no integer stands for all of them: `Number.isSafeInteger` refuses them
    alike. -/
def requestedFrameSize (options : EncryptionFormatOptions) (capacity : Shadowed) : Shadowed :=
  match options.frameSizeBytes with
  | none => Shadowed.min (defaultPlaintextFrameBytes : ℕ) capacity
  | some (.integer n) => (n : Shadowed)
  | some .nonInteger => ⟨.nan, 0⟩

/-- A safe integer that has passed the two range checks of `resolveFrameSize`. -/
theorem frameSize_bounds {x : Shadowed} {n : ℤ} (hsafe : x.double.safeInteger? = some n)
    (hlow : ¬ (x.lt 1).Holds) (hhigh : ¬ (x.gt 0xffffffff).Holds) :
    1 ≤ n.toNat ∧ n.toNat ≤ 0xffffffff := by
  obtain ⟨hdouble, hbound⟩ := Float64.eq_of_safeInteger? hsafe
  have hx : (⟨x.double, n⟩ : Shadowed).Tracks n := by
    rw [hdouble]
    exact ⟨.exact hbound.le, rfl⟩
  have h1 : ¬ n < 1 := mt (hx.lt (tracks_ofNat 1) (by decide)).holds.mpr hlow
  have h2 : ¬ (0xffffffff : ℕ) < n := mt (hx.gt (tracks_ofNat 0xffffffff) (by decide)).holds.mpr hhigh
  omega

def resolveFrameSize (options : EncryptionFormatOptions) (limits : FormatLimits) :
    Wire ο FrameSize := do
  let maxFrameBytes : Shadowed := limits.maxFrameBytes
  let capacity := maxFrameBytes - frameOverhead
  let tooSmall := plainError
    s!"[PipeX] Encryption frame limit {limits.maxFrameBytes} bytes is too small"
  throwIf (capacity.lt 1) tooSmall
  throwIf (maxFrameBytes.lt globalHeaderLength) tooSmall
  let requested := requestedFrameSize options capacity
  let outOfRange := plainError "[PipeX] Encryption frameSizeBytes must be a positive 32-bit integer"
  match hsafe : requested.double.safeInteger? with
  | none => Emit.fail outOfRange
  | some n =>
    check (requested.lt 1) outOfRange fun hlow =>
    check (requested.gt 0xffffffff) outOfRange fun hhigh => do
      throwIf (requested.gt capacity) (plainError
        s!"[PipeX] Encryption frameSizeBytes exceeds the {limits.maxFrameBytes}-byte frame limit")
      return ⟨n.toNat, frameSize_bounds hsafe hlow hhigh⟩

def encodedLength (plaintextBytes frameSizeBytes : Shadowed) : Shadowed :=
  let dataFrames := if plaintextBytes.double = 0 then 0 else plaintextBytes.ceilDiv frameSizeBytes
  globalHeaderLength + plaintextBytes + (dataFrames + 1) * frameOverhead

def dataFrameCount (plaintextBytes frameSizeBytes : Shadowed) : Shadowed :=
  if plaintextBytes.double = 0 then 0 else plaintextBytes.ceilDiv frameSizeBytes

/-! ## Headers and frames -/

def buildHeader (algorithm : EncryptionAlgorithm) (frameSizeBytes : Shadowed) (salt : Salt) :
    Wire ο Bytes := do
  let version ← Wire.writeUIntBE 1 version
  let algorithm ← Wire.writeUIntBE 1 (algorithmIds algorithm)
  let flags ← Wire.writeUIntBE 2 0
  let frameSizeBytes ← Wire.writeUIntBE 4 frameSizeBytes
  return magic ++ version ++ algorithm ++ flags ++ frameSizeBytes ++ salt.val

def parseHeader (header : Bytes) (limits : FormatLimits) : Wire ο ParsedHeader :=
  if header.length ≠ globalHeaderLength ∨ header.take 4 ≠ magic then
    Emit.fail (plainError "[PipeX] Decryption failed: invalid framed header")
  else if beNat ((header.drop 4).take 1) ≠ version then
    Emit.fail (plainError "[PipeX] Decryption failed: unsupported format version")
  else
    match idToAlgorithm (beNat ((header.drop 5).take 1)) with
    | none => Emit.fail (plainError "[PipeX] Decryption failed: invalid framed header")
    | some algorithm =>
      if beNat ((header.drop 6).take 2) ≠ 0 then
        Emit.fail (plainError "[PipeX] Decryption failed: invalid framed header")
      else do
        let frameSizeBytes : Shadowed := beNat ((header.drop 8).take 4)
        let invalidSize := plainError "[PipeX] Decryption failed: invalid frame size"
        throwIf (frameSizeBytes.lt 1) invalidSize
        throwIf (frameSizeBytes.gt ((limits.maxFrameBytes : Shadowed) - frameOverhead)) invalidSize
        return ⟨header, algorithm, beNat ((header.drop 8).take 4), (header.drop 12).take 16⟩

/-- 96 bits: four zero bytes and the frame sequence. -/
def nonceFor (sequence : ℕ) : Wire ο Bytes := do
  if sequence > 0xffffffffffffffff then
    Emit.fail (plainError "[PipeX] Encryption frame sequence exhausted")
  let sequence ← writeBigUInt64BE sequence
  return List.replicate 4 0 ++ sequence

def buildFrameHeader (type : Shadowed) (sequence : ℕ) (ciphertextBytes : Shadowed) :
    Wire ο Bytes := do
  let type ← Wire.writeUIntBE 1 type
  let sequence ← writeBigUInt64BE sequence
  let ciphertextBytes ← Wire.writeUIntBE 4 ciphertextBytes
  return type ++ sequence ++ ciphertextBytes

def encryptFrame (crypto : Crypto) (plaintext : Bytes) (type sequence : ℕ)
    (algorithm : EncryptionAlgorithm) (key globalHeader : Bytes) : Wire ο SealedFrame := do
  let frameHeader ← buildFrameHeader type sequence plaintext.length
  let nonce ← nonceFor sequence
  return ⟨type, sequence, frameHeader,
    crypto.cipher.sealCall algorithm key nonce (globalHeader ++ frameHeader) plaintext⟩

/-! ## encryptBuffer -/

section Buffer

variable (crypto : Crypto) (algorithm : EncryptionAlgorithm) (frameSizeBytes : FrameSize)
  (derivedKey header : Bytes)

/-- One pass of the `for` loop. -/
def encryptPass (sequence : ℕ) (rest : Bytes) : Wire SealedFrame (Progress ℕ UInt8) := do
  let frame ← encryptFrame crypto (rest.take frameSizeBytes.val) dataFrame sequence algorithm
    derivedKey header
  Wire.output frame
  return .done (sequence + 1) (rest.drop frameSizeBytes.val)

def encryptLoop : InputLoop ℕ UInt8 (WireEvent SealedFrame) JsError where
  body := encryptPass crypto algorithm frameSizeBytes derivedKey header
  consumes := by
    intro s x xs s' rest h
    simp only [encryptPass] at h
    obtain ⟨frame, -, h, -⟩ := Emit.bind_eq_ok h
    obtain ⟨-, -, h, -⟩ := Emit.bind_eq_ok h
    cases h
    have hpos := frameSizeBytes.property.1
    simp only [List.length_drop, List.length_cons]
    omega

/-- All frames of a message. -/
def encryptFrames (data : Bytes) : Wire SealedFrame Unit := do
  let sequence ← (encryptLoop crypto algorithm frameSizeBytes derivedKey header).run 0 data
  let frame ← encryptFrame crypto [] finalFrame sequence algorithm derivedKey header
  Wire.output frame

end Buffer

/-- The variables of `encryptBuffer` in front of its `for` loop. -/
structure PacketStart where
  frameSizeBytes : FrameSize
  outputLength : Shadowed
  header : Bytes
  derivedKey : Bytes

/-- `encryptBuffer` up to its `for` loop; `contextLimits` is `context?.limits`. -/
def startPacket (crypto : Crypto) (salt : Salt) (data : Bytes)
    (options : EncryptionFormatOptions) (contextLimits : Option EngineLimits) :
    Wire ο PacketStart := do
  assertEncryptionKey options.key
  let limits := limitsFor contextLimits
  throwIf ((data.length : Shadowed).gt limits.maxInputBytes)
    (plainError s!"[PipeX] Encryption input exceeds {limits.maxInputBytes} bytes")
  let frameSizeBytes ← resolveFrameSize options limits
  throwIf ((dataFrameCount data.length frameSizeBytes.val).gt limits.maxFrames)
    (plainError s!"[PipeX] Encryption frame count exceeds {limits.maxFrames}")
  let outputLength := encodedLength data.length frameSizeBytes.val
  throwIf (outputLength.gt limits.maxOutputBytes)
    (plainError s!"[PipeX] Encryption output exceeds {limits.maxOutputBytes} bytes")
  let header ← buildHeader options.algorithm frameSizeBytes.val salt
  let parsed ← parseHeader header limits
  return ⟨frameSizeBytes, outputLength, header, deriveKey crypto options.key parsed⟩

/-- What `encryptBuffer` has in hand before its last line, `Buffer.concat`. -/
structure Packet where
  header : Bytes
  frames : List SealedFrame
  outputLength : Shadowed

/-- `encryptBuffer` up to its last line. -/
def encryptPacket (crypto : Crypto) (salt : Salt) (data : Bytes)
    (options : EncryptionFormatOptions) (contextLimits : Option EngineLimits) : Wire ο Packet := do
  let start ← startPacket crypto salt data options contextLimits
  let frames ← collect
    (encryptFrames crypto options.algorithm start.frameSizeBytes start.derivedKey start.header data)
  return ⟨start.header, frames, start.outputLength⟩

def encryptBuffer (crypto : Crypto) (salt : Salt) (data : Bytes)
    (options : EncryptionFormatOptions) (contextLimits : Option EngineLimits) : Wire ο Bytes := do
  let packet ← encryptPacket crypto salt data options contextLimits
  Wire.bufferConcat (packet.header :: packet.frames.map SealedFrame.bytes) packet.outputLength

/-! ## createEncryptionStream -/

/-- The variables of the copy loop. -/
structure PendingFrame (n : ℕ) where
  pending : Partial UInt8 n
  dataFrames : Shadowed
  sequence : ℕ

/-- The variables of an encryption stream. -/
structure EncryptionState (n : ℕ) where
  inputBytes : Shadowed
  headerSent : Bool
  frames : PendingFrame n

namespace EncryptionStream

variable (crypto : Crypto) (stream : EncryptionStream)

/-- `++dataFrames > limits.maxFrames`, and the sealed frame pushed. -/
def pushDataFrame (plaintext : Bytes) (dataFrames : Shadowed) (sequence : ℕ) :
    Wire Written Unit := do
  throwIf ((dataFrames + 1).gt stream.limits.maxFrames)
    (plainError s!"[PipeX] Encryption frame count exceeds {stream.limits.maxFrames}")
  let frame ← encryptFrame crypto plaintext dataFrame sequence stream.algorithm stream.derivedKey
    stream.header
  Wire.output (.frame frame)

/-- One pass of the copy loop in `transform`. -/
def copyPass (s : PendingFrame stream.frameSizeBytes.val) (input : Bytes) :
    Wire Written (Progress (PendingFrame stream.frameSizeBytes.val) UInt8) :=
  match s.pending.fill input with
  | .more p => pure (.more { s with pending := p })
  | .full plaintext rest => do
    pushDataFrame crypto stream plaintext s.dataFrames s.sequence
    return .done ⟨stream.noPending, s.dataFrames + 1, s.sequence + 1⟩ rest

/-- The `while` loop of `transform`. -/
def copyLoop : InputLoop (PendingFrame stream.frameSizeBytes.val) UInt8 (WireEvent Written)
    JsError where
  body := copyPass crypto stream
  consumes := by
    intro s x xs s' rest h
    simp only [copyPass] at h
    split at h
    · cases h
    · rename_i plaintext rest₀ hfill
      obtain ⟨-, -, h, -⟩ := Emit.bind_eq_ok h
      cases h
      exact Partial.length_rest_lt hfill

/-- `transform(chunk)`. -/
def transform (s : EncryptionState stream.frameSizeBytes.val) (input : Bytes) :
    Wire Written (EncryptionState stream.frameSizeBytes.val) := do
  throwIf ((input.length : Shadowed).gt ((stream.limits.maxInputBytes : Shadowed) - s.inputBytes))
    (plainError s!"[PipeX] Encryption input exceeds {stream.limits.maxInputBytes} bytes")
  let prospectiveInput := s.inputBytes + input.length
  throwIf ((dataFrameCount prospectiveInput stream.frameSizeBytes.val).gt stream.limits.maxFrames)
    (plainError s!"[PipeX] Encryption frame count exceeds {stream.limits.maxFrames}")
  throwIf ((encodedLength prospectiveInput stream.frameSizeBytes.val).gt
      stream.limits.maxOutputBytes)
    (plainError s!"[PipeX] Encryption output exceeds {stream.limits.maxOutputBytes} bytes")
  if s.headerSent = false then
    Wire.output (.header stream.header)
  let frames ← (copyLoop crypto stream).run s.frames input
  return ⟨prospectiveInput, true, frames⟩

/-- The frames that `flush` pushes: the short last data frame and the final frame. -/
def flushFrames (s : PendingFrame stream.frameSizeBytes.val) : Wire Written Unit := do
  let sequence ←
    if s.pending.filled.length > 0 then do
      pushDataFrame crypto stream s.pending.filled s.dataFrames s.sequence
      pure (s.sequence + 1)
    else
      pure s.sequence
  let frame ← encryptFrame crypto [] finalFrame sequence stream.algorithm stream.derivedKey
    stream.header
  Wire.output (.frame frame)

/-- `flush()`. -/
def flush (s : EncryptionState stream.frameSizeBytes.val) : Wire Written Unit := do
  if s.headerSent = false then
    Wire.output (.header stream.header)
  flushFrames crypto stream s.frames

def writer : Transform (EncryptionState stream.frameSizeBytes.val) Bytes (WireEvent Written)
    JsError where
  transform := transform crypto stream
  flush := flush crypto stream

def machine : Transform (EncryptionState stream.frameSizeBytes.val) Bytes (WireEvent Bytes)
    JsError :=
  (writer crypto stream).mapOut (WireEvent.map Written.bytes)

def start : EncryptionState stream.frameSizeBytes.val := ⟨0, false, ⟨stream.noPending, 0, 0⟩⟩

end EncryptionStream

def createEncryptionStream (crypto : Crypto) (salt : Salt) (options : EncryptionFormatOptions)
    (contextLimits : Option EngineLimits) : Wire ο EncryptionStream := do
  assertEncryptionKey options.key
  let limits := limitsFor contextLimits
  let frameSizeBytes ← resolveFrameSize options limits
  throwIf ((encodedLength 0 frameSizeBytes.val).gt limits.maxOutputBytes)
    (plainError s!"[PipeX] Encryption output exceeds {limits.maxOutputBytes} bytes")
  let header ← buildHeader options.algorithm frameSizeBytes.val salt
  let parsed ← parseHeader header limits
  let derivedKey := deriveKey crypto options.key parsed
  return ⟨options.algorithm, limits, frameSizeBytes, header, derivedKey⟩

/-- Construct the stream, hand it the chunks and end it. -/
def encryptStream (crypto : Crypto) (salt : Salt) (options : EncryptionFormatOptions)
    (contextLimits : Option EngineLimits) (chunks : List Bytes) : Wire Bytes Unit := do
  let stream ← createEncryptionStream crypto salt options contextLimits
  (EncryptionStream.machine crypto stream).complete (EncryptionStream.start stream) chunks

/-! ## Sizes stay exact -/

theorem dataFrameCount_tracks {x y : Shadowed} {n f : ℕ} (hx : x.Tracks n) (hy : y.Tracks f)
    (hn : n < 2 ^ 53) (hf : 0 < f) (hf' : f < 2 ^ 53) :
    (dataFrameCount x y).Tracks (EncryptionFormat.dataFrameCount n f : ℕ) := by
  have hzero := hx.eq_zero_iff (by omega)
  by_cases h : n = 0
  · rw [dataFrameCount, if_pos (hzero.mpr (by omega)), h, dataFrameCount_zero]
    exact tracks_ofNat 0
  · rw [dataFrameCount, if_neg (mt hzero.mp (by omega)), EncryptionFormat.dataFrameCount, if_neg h]
    exact hx.ceilDiv hy (by omega) hn hf hf'

theorem encodedLength_tracks {x y : Shadowed} {n f : ℕ} (hx : x.Tracks n) (hy : y.Tracks f)
    (hn : n < 2 ^ 53) (hf : 0 < f) (hf' : f < 2 ^ 53) :
    (encodedLength x y).Tracks (EncryptionFormat.encodedLength n f : ℕ) := by
  have hcount := dataFrameCount_tracks hx hy hn hf hf'
  have hframes := hcount.add (tracks_ofNat 1)
  have hoverhead := hframes.mul (tracks_natCast frameOverhead) (by decide) (by decide)
  exact ((tracks_natCast globalHeaderLength).add hx).add hoverhead

/-- In frames of one byte the doubles do lose integers. -/
example : encodedLength (maxSafeInteger : ℕ) (1 : ℕ) =
    ⟨.finite 270215977642229792, 270215977642229787⟩ := by decide +kernel

/-- Limits that are safe integers. -/
structure SafeLimits (limits : FormatLimits) : Prop where
  maxInputBytes : limits.maxInputBytes < 2 ^ 53
  maxOutputBytes : limits.maxOutputBytes < 2 ^ 53
  maxFrameBytes : limits.maxFrameBytes < 2 ^ 53
  maxFrames : limits.maxFrames < 2 ^ 53

/-- Those of an engine are. -/
theorem limitsFor_safe (limits : Option AcceptedLimits) :
    SafeLimits (limitsFor (limits.map Subtype.val)) := by
  refine ⟨pluginInputLimit_lt_two_pow limits, pluginOutputLimit_lt_two_pow limits, ?_, ?_⟩
  · cases limits with
    | none => decide
    | some limits => exact limits.property.lt_two_pow .maxFrameBytes
  · cases limits with
    | none => decide
    | some limits => exact limits.property.lt_two_pow .maxFrames

/-! ## The frame size -/

/-- What the option checks see of a double. -/
inductive ReadsAs (x : Shadowed) : JsNumber → Prop where
  | safe {n : ℤ} (hsafe : (JsNumber.integer n).isSafeInteger = true) (h : x.Tracks n) :
      ReadsAs x (.integer n)
  | refused {requested : JsNumber} (hsafe : requested.isSafeInteger = false)
      (h : x.double.safeInteger? = none) : ReadsAs x requested

theorem isSafeInteger_iff (n : ℤ) :
    (JsNumber.integer n).isSafeInteger = true ↔ n.natAbs < 2 ^ 53 := by
  rw [JsNumber.isSafeInteger, decide_eq_true_eq, maxSafeInteger]
  omega

theorem intCast_readsAs (n : ℤ) : ReadsAs (n : Shadowed) (.integer n) := by
  have hsafe := isSafeInteger_iff n
  by_cases h : n.natAbs < 2 ^ 53
  · exact .safe (hsafe.mpr h) (tracks_intCast h.le)
  · refine .refused (by simpa using mt hsafe.mp h) ?_
    show (Float64.ofInt n).safeInteger? = none
    rw [Float64.safeInteger?_ofInt, if_neg]
    rw [Int.abs_eq_natAbs]
    exact_mod_cast h

theorem requestedFrameSize_readsAs (options : EncryptionFormatOptions) {capacity : Shadowed}
    {c : ℤ} (hcapacity : capacity.Tracks c) (hc : c.natAbs < 2 ^ 53) :
    ReadsAs (requestedFrameSize options capacity)
      (options.frameSizeBytes.getD (.integer (min (defaultPlaintextFrameBytes : ℤ) c))) := by
  rw [requestedFrameSize]
  cases options.frameSizeBytes with
  | none =>
    have hmin := (tracks_natCast defaultPlaintextFrameBytes).min hcapacity (by decide) hc
    refine .safe ((isSafeInteger_iff _).mpr ?_) hmin
    rcases min_choice (defaultPlaintextFrameBytes : ℤ) c with h | h
    · rw [h]
      decide
    · rw [h]
      exact hc
  | some requested =>
    cases requested with
    | integer n => exact intCast_readsAs n
    | nonInteger => exact .refused rfl rfl

theorem resolveFrameSize_refines (options : EncryptionFormatOptions) {limits : FormatLimits}
    (hlimits : SafeLimits limits) :
    Refines FieldValue.Fits Eq (resolveFrameSize options limits : Wire ο FrameSize)
      (Emit.ofExcept (EncryptionFormat.resolveFrameSize options limits)) := by
  have hmax := hlimits.maxFrameBytes
  have hframe : (limits.maxFrameBytes : Shadowed).Tracks limits.maxFrameBytes := tracks_natCast _
  have hbound : ((limits.maxFrameBytes : ℤ) - frameOverhead).natAbs < 2 ^ 53 := by
    simp only [frameOverhead, frameHeaderLength, tagLength]
    omega
  have hcapacity := hframe.sub (tracks_natCast frameOverhead) hmax (by decide)
  have hheader : ((limits.maxFrameBytes : Shadowed).lt globalHeaderLength).Decides
      (limits.maxFrameBytes < globalHeaderLength) :=
    (hframe.lt (tracks_natCast _) (by decide)).congr (by omega)
  have hreads := requestedFrameSize_readsAs options hcapacity hbound
  rw [EncryptionFormat.resolveFrameSize, ite_or]
  refine throwIf_refines_except (hcapacity.lt (tracks_ofNat 1) (by decide)) fun hsmall => ?_
  refine throwIf_refines_except hheader fun _ => ?_
  -- the number asked for, as both see it
  generalize requestedFrameSize options (limits.maxFrameBytes - frameOverhead) = x at hreads ⊢
  generalize options.frameSizeBytes.getD _ = requested at hreads ⊢
  dsimp only
  cases hreads with
  | refused hsafe hnone =>
    -- no safe integer: neither program reads a number
    split
    · cases requested with
      | nonInteger => exact .fail _
      | integer n =>
        dsimp only
        rw [dif_pos (Or.inl hsafe)]
        exact .fail _
    · rename_i hsome
      rw [hnone] at hsome
      cases hsome
  | @safe n hsafe h =>
    -- both read the same number, and ask the same of it
    have hn := (isSafeInteger_iff n).mp hsafe
    have hread := h.safeInteger? hn
    split
    · rename_i hnone
      rw [hread] at hnone
      cases hnone
    · rename_i m hsome
      rw [hread] at hsome
      cases hsome
      dsimp only
      have hlow := h.lt (tracks_ofNat 1) (by decide)
      have hhigh := h.gt (tracks_ofNat 0xffffffff) (by decide)
      by_cases h1 : n < 1
      · rw [dif_pos (Or.inr (Or.inl h1))]
        exact check_fails hlow h1
      by_cases h2 : n > 0xffffffff
      · rw [dif_pos (Or.inr (Or.inr h2))]
        exact check_passes hlow h1 fun _ => check_fails hhigh h2
      rw [dif_neg (by simp [hsafe, h1, h2])]
      refine check_passes hlow h1 fun _ => check_passes hhigh h2 fun _ => ?_
      exact throwIf_refines_except (h.gt hcapacity hbound) fun _ => .pure rfl

/-! ## Headers and frames -/

theorem buildHeader_refines (algorithm : EncryptionAlgorithm) (frameSizeBytes : FrameSize)
    (salt : Salt) :
    Refines FieldValue.Fits Eq
      (buildHeader algorithm frameSizeBytes.val salt : Wire ο Bytes)
      (pure (EncryptionFormat.buildHeader algorithm frameSizeBytes salt)) := by
  have hsize := frameSizeBytes.property.2
  have hid : algorithmIds algorithm < 256 ^ 1 := by cases algorithm <;> decide
  refine Simulates.bind_left (writeUIntBE_fits (by decide) (by decide)) fun _ h1 => ?_
  refine Simulates.bind_left (writeUIntBE_fits (by decide) hid) fun _ h2 => ?_
  refine Simulates.bind_left (writeUIntBE_fits (by decide) (by decide)) fun _ h3 => ?_
  refine Simulates.bind_left (writeUIntBE_fits (by decide) (by omega)) fun _ h4 => ?_
  rw [h1, h2, h3, h4]
  exact .pure rfl

theorem parseHeader_refines (header : Bytes) {limits : FormatLimits} (hlimits : SafeLimits limits) :
    Refines FieldValue.Fits Eq (parseHeader header limits : Wire ο ParsedHeader)
      (Emit.ofExcept (EncryptionFormat.parseHeader header limits)) := by
  have hmax := hlimits.maxFrameBytes
  have hcapacity := (tracks_natCast limits.maxFrameBytes).sub (tracks_natCast frameOverhead) hmax
    (by decide)
  rw [parseHeader, EncryptionFormat.parseHeader]
  by_cases h1 : header.length ≠ globalHeaderLength ∨ header.take 4 ≠ magic
  · rw [if_pos h1, if_pos h1]
    exact .fail _
  rw [if_neg h1, if_neg h1]
  by_cases h2 : beNat ((header.drop 4).take 1) ≠ version
  · rw [if_pos h2, if_pos h2]
    exact .fail _
  rw [if_neg h2, if_neg h2]
  cases idToAlgorithm (beNat ((header.drop 5).take 1)) with
  | none => exact .fail _
  | some algorithm =>
    dsimp only
    by_cases h3 : beNat ((header.drop 6).take 2) ≠ 0
    · rw [if_pos h3, if_pos h3]
      exact .fail _
    rw [if_neg h3, if_neg h3, ite_or]
    have hsize := tracks_natCast (beNat ((header.drop 8).take 4))
    refine throwIf_refines_except ((hsize.lt (tracks_ofNat 1) (by decide)).congr (by omega))
      fun _ => ?_
    refine throwIf_refines_except (hsize.gt hcapacity ?_) fun _ => .pure rfl
    simp only [frameOverhead, frameHeaderLength, tagLength]
    omega

theorem nonceFor_refines {sequence : ℕ} (h : sequence < 256 ^ 8) :
    Refines FieldValue.Fits Eq (nonceFor sequence : Wire ο Bytes)
      (Emit.ofExcept (EncryptionFormat.nonceFor sequence)) := by
  have hexhausted : ¬ sequence > 0xffffffffffffffff := by omega
  rw [nonceFor, EncryptionFormat.nonceFor, if_neg hexhausted, if_neg hexhausted]
  refine Simulates.bind_left (writeBigUInt64BE_fits h) fun _ h1 => ?_
  rw [h1]
  exact .pure rfl

theorem buildFrameHeader_refines {type sequence n : ℕ} (htype : type < 256 ^ 1)
    (hsequence : sequence < 256 ^ 8) (hn : n < 256 ^ 4) :
    Refines FieldValue.Fits Eq (buildFrameHeader type sequence n : Wire ο Bytes)
      (Emit.ofExcept (EncryptionFormat.buildFrameHeader type sequence n)) := by
  rw [EncryptionFormat.buildFrameHeader_eq, if_pos ⟨htype, hsequence, hn⟩]
  refine Simulates.bind_left (writeUIntBE_fits (by decide) htype) fun _ h1 => ?_
  refine Simulates.bind_left (writeBigUInt64BE_fits hsequence) fun _ h2 => ?_
  refine Simulates.bind_left (writeUIntBE_fits (by decide) hn) fun _ h3 => ?_
  rw [h1, h2, h3]
  exact .pure rfl

theorem encryptFrame_refines (crypto : Crypto) {plaintext : Bytes} {type sequence : ℕ}
    (algorithm : EncryptionAlgorithm) (key globalHeader : Bytes) (htype : type < 256 ^ 1)
    (hsequence : sequence < 256 ^ 8) (hplaintext : plaintext.length < 256 ^ 4) :
    Refines FieldValue.Fits Eq
      (encryptFrame crypto plaintext type sequence algorithm key globalHeader :
        Wire ο SealedFrame)
      (Emit.ofExcept
        (EncryptionFormat.encryptFrame crypto plaintext type sequence algorithm key globalHeader)) := by
  refine Simulates.bind_except (buildFrameHeader_refines htype hsequence hplaintext)
    fun _ _ h1 => ?_
  refine Simulates.bind_except (nonceFor_refines hsequence) fun _ _ h2 => ?_
  rw [h1, h2]
  exact .pure rfl

/-! ## encryptBuffer -/

/-- A full frame less is one frame less to come. -/
theorem dataFrameCount_drop {f : ℕ} (hf : 0 < f) {rest : Bytes} (hne : rest ≠ []) :
    EncryptionFormat.dataFrameCount (rest.drop f).length f + 1 =
      EncryptionFormat.dataFrameCount rest.length f := by
  have hlen : 0 < rest.length := List.length_pos_iff.mpr hne
  rw [List.length_drop]
  by_cases h : rest.length ≤ f
  · rw [Nat.sub_eq_zero_of_le h, dataFrameCount_zero, dataFrameCount_of_le hlen h]
  · have hsplit : rest.length = f + (rest.length - f) := by omega
    rw [← dataFrameCount_add hf, ← hsplit]

section Buffer

variable (crypto : Crypto) (algorithm : EncryptionAlgorithm) (frameSizeBytes : FrameSize)
  (derivedKey header : Bytes)

/-- The sequence leaves room for the frames to come. -/
def SequenceRoom (rest : Bytes) (s t : ℕ) : Prop :=
  s = t ∧ t + EncryptionFormat.dataFrameCount rest.length frameSizeBytes.val < 2 ^ 53

theorem encryptPass_refines {s t : ℕ} {rest : Bytes} (hne : rest ≠ [])
    (h : SequenceRoom frameSizeBytes rest s t) :
    Refines FieldValue.Fits (Simulates.SameProgress (SequenceRoom frameSizeBytes))
      (encryptPass crypto algorithm frameSizeBytes derivedKey header s rest)
      (EncryptionFormat.encryptPass crypto algorithm frameSizeBytes derivedKey header t rest) := by
  obtain ⟨rfl, hroom⟩ := h
  have hsize := frameSizeBytes.property.2
  have hcount := dataFrameCount_drop frameSizeBytes.property.1 hne
  have htake := List.length_take_le frameSizeBytes.val rest
  refine Simulates.bind (encryptFrame_refines crypto algorithm derivedKey header (by decide)
    (by omega) (by omega)) fun _ frame hframe => ?_
  rw [hframe]
  refine Simulates.bind (output_refines frame) fun _ _ _ => ?_
  exact .pure (.done ⟨rfl, by omega⟩)

theorem encryptFrames_refines {data : Bytes}
    (hcount : EncryptionFormat.dataFrameCount data.length frameSizeBytes.val < 2 ^ 53) :
    Refines FieldValue.Fits Eq
      (encryptFrames crypto algorithm frameSizeBytes derivedKey header data)
      (EncryptionFormat.encryptFrames crypto algorithm frameSizeBytes derivedKey header data) := by
  have hstart : SequenceRoom frameSizeBytes data 0 0 := ⟨rfl, by omega⟩
  have hloop := Simulates.run (encryptLoop crypto algorithm frameSizeBytes derivedKey header)
    (EncryptionFormat.encryptLoop crypto algorithm frameSizeBytes derivedKey header)
    (fun _ _ _ hne h => encryptPass_refines crypto algorithm frameSizeBytes derivedKey header hne h)
    data hstart
  refine hloop.bind fun s sequence hsequence => ?_
  obtain ⟨rfl, hroom⟩ := hsequence
  refine Simulates.bind (encryptFrame_refines crypto algorithm derivedKey header (by decide)
    (by omega) (by decide)) fun _ frame hframe => ?_
  rw [hframe]
  exact output_refines frame

end Buffer

/-- The variables in front of the loop; its frames can be counted. -/
structure SameStart (data : Bytes) (s : PacketStart) (t : EncryptionFormat.PacketStart) : Prop where
  frameSizeBytes : s.frameSizeBytes = t.frameSizeBytes
  outputLength : s.outputLength.Tracks t.outputLength
  header : s.header = t.header
  derivedKey : s.derivedKey = t.derivedKey
  safe : t.outputLength < 2 ^ 53
  counted : EncryptionFormat.dataFrameCount data.length t.frameSizeBytes.val < 2 ^ 53

theorem startPacket_refines (crypto : Crypto) (salt : Salt) (data : Bytes)
    (options : EncryptionFormatOptions) {contextLimits : Option EngineLimits}
    (hlimits : SafeLimits (limitsFor contextLimits)) :
    Refines FieldValue.Fits (SameStart data)
      (startPacket crypto salt data options contextLimits : Wire ο PacketStart)
      (Emit.ofExcept (EncryptionFormat.startPacket crypto salt data options contextLimits)) := by
  have hmaxInput := hlimits.maxInputBytes
  have hmaxOutput := hlimits.maxOutputBytes
  have hmaxFrames := hlimits.maxFrames
  have hinput : ((data.length : Shadowed).gt (limitsFor contextLimits).maxInputBytes).Decides
      (data.length > (limitsFor contextLimits).maxInputBytes) :=
    (tracks_natCast _).gt_nat (tracks_natCast _) hmaxInput
  refine Simulates.bind_except (.ofExcept _) fun _ _ _ => ?_
  refine throwIf_refines_except hinput fun hle => ?_
  have hdata : data.length < 2 ^ 53 := by omega
  refine Simulates.bind_except (resolveFrameSize_refines options hlimits) fun _ f hf => ?_
  rw [hf]
  obtain ⟨hpos, hsize⟩ := f.property
  have hcount := dataFrameCount_tracks (tracks_natCast data.length) (tracks_natCast f.val) hdata
    (by omega) (by omega)
  have hlength := encodedLength_tracks (tracks_natCast data.length) (tracks_natCast f.val) hdata
    (by omega) (by omega)
  refine throwIf_refines_except (hcount.gt_nat (tracks_natCast _) hmaxFrames)
    fun hframes => ?_
  refine throwIf_refines_except (hlength.gt_nat (tracks_natCast _) hmaxOutput)
    fun houtput => ?_
  refine Simulates.bind_left (buildHeader_refines options.algorithm f salt) fun _ hheader => ?_
  rw [hheader]
  refine Simulates.bind_except (parseHeader_refines _ hlimits) fun _ parsed hparsed => ?_
  rw [hparsed]
  exact .pure ⟨rfl, hlength, rfl, rfl, lt_of_le_of_lt (not_lt.mp houtput) hmaxOutput,
    lt_of_le_of_lt (not_lt.mp hframes) hmaxFrames⟩

theorem encryptPacket_refines (crypto : Crypto) (salt : Salt) (data : Bytes)
    (options : EncryptionFormatOptions) {contextLimits : Option EngineLimits}
    (hlimits : SafeLimits (limitsFor contextLimits)) :
    Refines FieldValue.Fits
      (fun packet exact => packet.header = exact.header ∧ packet.frames = exact.frames ∧
        packet.outputLength.Tracks exact.outputLength ∧ exact.outputLength < 2 ^ 53)
      (encryptPacket crypto salt data options contextLimits : Wire ο Packet)
      (Emit.ofExcept (EncryptionFormat.encryptPacket crypto salt data options contextLimits)) := by
  refine Simulates.bind_except (startPacket_refines crypto salt data options hlimits)
    fun start exact hstart => ?_
  rw [hstart.frameSizeBytes, hstart.header, hstart.derivedKey]
  refine Simulates.bind_except (collect_refines (encryptFrames_refines crypto options.algorithm
    exact.frameSizeBytes _ _ hstart.counted)) fun frames _ hout => ?_
  rw [hout]
  exact .pure ⟨rfl, rfl, hstart.outputLength, hstart.safe⟩

theorem encryptBuffer_refines (crypto : Crypto) (salt : Salt) (data : Bytes)
    (options : EncryptionFormatOptions) {contextLimits : Option EngineLimits}
    (hlimits : SafeLimits (limitsFor contextLimits)) :
    Refines FieldValue.Fits Eq (encryptBuffer crypto salt data options contextLimits : Wire ο Bytes)
      (Emit.ofExcept (EncryptionFormat.encryptBuffer crypto salt data options contextLimits)) := by
  refine Simulates.bind_except (encryptPacket_refines crypto salt data options hlimits)
    fun packet exact hpacket => ?_
  obtain ⟨hheader, hframes, hlength, hbound⟩ := hpacket
  rw [hheader, hframes]
  exact bufferConcat_refines hlength hbound

/-! ## createEncryptionStream -/

namespace EncryptionStream

variable (crypto : Crypto) {stream : EncryptionStream}

/-- The variables of the copy loop: the frame counter is the sequence, and within its
    limit. -/
structure SameFrames (s : PendingFrame stream.frameSizeBytes.val)
    (t : EncryptionFormat.PendingFrame stream.frameSizeBytes.val) : Prop where
  pending : s.pending = t.pending
  dataFrames : s.dataFrames.Tracks t.dataFrames
  sequence : s.sequence = t.sequence
  counted : t.sequence = t.dataFrames
  within : t.dataFrames ≤ stream.limits.maxFrames

structure SameState (s : EncryptionState stream.frameSizeBytes.val)
    (t : EncryptionFormat.EncryptionState stream.frameSizeBytes.val) : Prop where
  inputBytes : s.inputBytes.Tracks t.inputBytes
  headerSent : s.headerSent = t.headerSent
  frames : SameFrames s.frames t.frames
  within : t.inputBytes ≤ stream.limits.maxInputBytes

variable (hlimits : SafeLimits stream.limits)

include hlimits

theorem pushDataFrame_refines {plaintext : Bytes} {dataFrames : Shadowed} {n sequence : ℕ}
    (hframes : dataFrames.Tracks n) (hsequence : sequence = n)
    (hplaintext : plaintext.length < 256 ^ 4) :
    Refines FieldValue.Fits (fun _ _ => n + 1 ≤ stream.limits.maxFrames)
      (pushDataFrame crypto stream plaintext dataFrames sequence)
      (EncryptionFormat.EncryptionStream.pushDataFrame crypto stream plaintext n sequence) := by
  have hmax := hlimits.maxFrames
  have hnext := hframes.add (tracks_ofNat 1)
  refine throwIf_refines (hnext.gt_nat (tracks_natCast _) hmax) fun hle => ?_
  refine Simulates.bind (encryptFrame_refines crypto stream.algorithm stream.derivedKey
    stream.header (by decide) (by omega) hplaintext) fun _ frame hframe => ?_
  rw [hframe]
  exact (output_refines _).mono fun _ _ _ => by omega

theorem copyPass_refines {s : PendingFrame stream.frameSizeBytes.val}
    {t : EncryptionFormat.PendingFrame stream.frameSizeBytes.val} (h : SameFrames s t)
    (input : Bytes) :
    Refines FieldValue.Fits (Simulates.SameProgress fun _ => SameFrames)
      (copyPass crypto stream s input)
      (EncryptionFormat.EncryptionStream.copyPass crypto stream t input) := by
  have hsize := stream.frameSizeBytes.property.2
  rw [copyPass, EncryptionFormat.EncryptionStream.copyPass, h.pending]
  rcases Partial.fill_cases t.pending input with ⟨hlt, hfill⟩ | ⟨plaintext, rest, hfill, hlen, -⟩
  · rw [hfill]
    exact .pure (.more { h with pending := rfl })
  · rw [hfill]
    dsimp only
    rw [h.sequence]
    refine Simulates.bind (pushDataFrame_refines crypto hlimits h.dataFrames h.counted (by omega))
      fun _ _ hle => ?_
    have hnext := h.dataFrames.add (tracks_ofNat 1)
    exact .pure (.done ⟨rfl, hnext, rfl, by rw [h.counted], hle⟩)

theorem transform_refines {s : EncryptionState stream.frameSizeBytes.val}
    {t : EncryptionFormat.EncryptionState stream.frameSizeBytes.val} (h : SameState s t)
    (input : Bytes) :
    Refines FieldValue.Fits SameState (transform crypto stream s input)
      (EncryptionFormat.EncryptionStream.transform crypto stream t input) := by
  have hmaxInput := hlimits.maxInputBytes
  have hmaxOutput := hlimits.maxOutputBytes
  have hmaxFrames := hlimits.maxFrames
  have hwithin := h.within
  obtain ⟨hpos, hsize⟩ := stream.frameSizeBytes.property
  have hleft := (tracks_natCast stream.limits.maxInputBytes).sub h.inputBytes hmaxInput (by omega)
  refine throwIf_refines ((tracks_natCast _).gt hleft (by omega)) fun hle => ?_
  -- the input that has been let in is a safe integer
  have hinput := h.inputBytes.add (tracks_natCast input.length)
  have hinside : t.inputBytes + input.length ≤ stream.limits.maxInputBytes := by omega
  have hbound : t.inputBytes + input.length < 2 ^ 53 := by omega
  have hcount := dataFrameCount_tracks hinput (tracks_natCast stream.frameSizeBytes.val) hbound
    (by omega) (by omega)
  have hlength := encodedLength_tracks hinput (tracks_natCast stream.frameSizeBytes.val) hbound
    (by omega) (by omega)
  refine throwIf_refines (hcount.gt_nat (tracks_natCast _) hmaxFrames)
    fun _ => ?_
  refine throwIf_refines (hlength.gt_nat (tracks_natCast _) hmaxOutput)
    fun _ => ?_
  have hcopy := Simulates.run (copyLoop crypto stream)
    (EncryptionFormat.EncryptionStream.copyLoop crypto stream)
    (fun _ _ input _ h => copyPass_refines crypto hlimits h input) input h.frames
  have hrest : Refines FieldValue.Fits SameState
      ((copyLoop crypto stream).run s.frames input >>= fun frames =>
        pure ⟨s.inputBytes + input.length, true, frames⟩)
      ((EncryptionFormat.EncryptionStream.copyLoop crypto stream).run t.frames input >>= fun frames =>
        pure ⟨t.inputBytes + input.length, true, frames⟩) :=
    hcopy.bind fun _ _ hframes => .pure ⟨hinput, rfl, hframes, hinside⟩
  refine Simulates.ite (by rw [h.headerSent]) (fun _ => ?_) fun _ => hrest
  exact Simulates.bind (output_refines _) fun _ _ _ => hrest

/-- The frames of a flush; the sequence of the final frame is within the limit too. -/
theorem flushFrames_refines {s : PendingFrame stream.frameSizeBytes.val}
    {t : EncryptionFormat.PendingFrame stream.frameSizeBytes.val} (h : SameFrames s t) :
    Refines FieldValue.Fits Eq (flushFrames crypto stream s)
      (EncryptionFormat.EncryptionStream.flushFrames crypto stream t) := by
  have hmax := hlimits.maxFrames
  have hsize := stream.frameSizeBytes.property.2
  have hshort := t.pending.short
  have hcounted := h.counted
  have hwithin := h.within
  have hfinal : ∀ sequence, sequence ≤ stream.limits.maxFrames →
      Refines FieldValue.Fits Eq
        (encryptFrame crypto [] finalFrame sequence stream.algorithm stream.derivedKey
          stream.header >>= fun frame => Wire.output (Written.frame frame))
        (Emit.ofExcept (EncryptionFormat.encryptFrame crypto [] finalFrame sequence
          stream.algorithm stream.derivedKey stream.header) >>= fun frame =>
            Emit.push (.frame frame)) := by
    intro sequence hle
    refine Simulates.bind (encryptFrame_refines crypto stream.algorithm stream.derivedKey
      stream.header (by decide) (by omega) (by decide)) fun _ frame hframe => ?_
    rw [hframe]
    exact output_refines _
  rw [flushFrames, EncryptionFormat.EncryptionStream.flushFrames, h.pending, h.sequence]
  refine Simulates.ite Iff.rfl (fun _ => ?_) fun _ => ?_
  · refine Simulates.bind (pushDataFrame_refines crypto hlimits h.dataFrames hcounted (by omega))
      fun _ _ hle => ?_
    exact hfinal _ (by omega)
  · exact hfinal _ (by omega)

theorem flush_refines {s : EncryptionState stream.frameSizeBytes.val}
    {t : EncryptionFormat.EncryptionState stream.frameSizeBytes.val} (h : SameState s t) :
    Refines FieldValue.Fits Eq (flush crypto stream s)
      (EncryptionFormat.EncryptionStream.flush crypto stream t) := by
  have hframes := flushFrames_refines crypto hlimits h.frames
  refine Simulates.ite (by rw [h.headerSent]) (fun _ => ?_) fun _ => hframes
  exact Simulates.bind (output_refines _) fun _ _ _ => hframes

end EncryptionStream

theorem createEncryptionStream_refines (crypto : Crypto) (salt : Salt)
    (options : EncryptionFormatOptions) {contextLimits : Option EngineLimits}
    (hlimits : SafeLimits (limitsFor contextLimits)) :
    Refines FieldValue.Fits (fun stream exact => stream = exact ∧ SafeLimits exact.limits)
      (createEncryptionStream crypto salt options contextLimits : Wire ο EncryptionStream)
      (Emit.ofExcept
        (EncryptionFormat.createEncryptionStream crypto salt options contextLimits)) := by
  have hmaxOutput := hlimits.maxOutputBytes
  refine Simulates.bind_except (.ofExcept _) fun _ _ _ => ?_
  refine Simulates.bind_except (resolveFrameSize_refines options hlimits) fun _ f hf => ?_
  rw [hf]
  obtain ⟨hpos, hsize⟩ := f.property
  have hlength := encodedLength_tracks (tracks_ofNat 0) (tracks_natCast f.val) (by decide)
    (by omega) (by omega)
  refine throwIf_refines_except (hlength.gt_nat (tracks_natCast _) hmaxOutput)
    fun _ => ?_
  refine Simulates.bind_left (buildHeader_refines options.algorithm f salt) fun _ hheader => ?_
  rw [hheader]
  refine Simulates.bind_except (parseHeader_refines _ hlimits) fun _ parsed hparsed => ?_
  rw [hparsed]
  exact .pure ⟨rfl, hlimits⟩

theorem encryptStream_refines (crypto : Crypto) (salt : Salt) (options : EncryptionFormatOptions)
    {contextLimits : Option EngineLimits} (hlimits : SafeLimits (limitsFor contextLimits))
    (chunks : List Bytes) :
    Refines FieldValue.Fits Eq (encryptStream crypto salt options contextLimits chunks)
      (EncryptionFormat.encryptStream crypto salt options contextLimits chunks) := by
  refine Simulates.bind (createEncryptionStream_refines crypto salt options hlimits)
    fun _ stream hstream => ?_
  obtain ⟨rfl, hsafe⟩ := hstream
  rw [EncryptionStream.machine, EncryptionFormat.EncryptionStream.machine,
    Transform.complete_mapOut, Transform.complete_mapOut]
  refine mapOut_refines Written.bytes ?_
  refine Simulates.complete (fun _ _ chunk h => EncryptionStream.transform_refines crypto hsafe h chunk)
    (fun _ _ h => EncryptionStream.flush_refines crypto hsafe h) chunks ?_
  exact ⟨tracks_ofNat 0, rfl, ⟨rfl, tracks_ofNat 0, rfl, rfl, Nat.zero_le _⟩, Nat.zero_le _⟩

end PipeX.EncryptionFormat.Numbers
