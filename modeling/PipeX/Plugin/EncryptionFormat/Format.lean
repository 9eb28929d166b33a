/-
  PipeX.Plugin.EncryptionFormat.Format

  The PXAE wire format of `src/plugin/encryptionFormat.ts`: the 28-byte global
  header, the 13-byte frame header, key derivation, and the sealing and opening
  of one frame.

  `hkdfSync` and the two AEAD ciphers are Node's; the model takes them as the
  parameter `Crypto`.
-/
import PipeX.Core.Errors
import PipeX.Core.ResourceLimits
import PipeX.Core.Runtime
import PipeX.Lib.Aead
import PipeX.Lib.BigEndian

namespace PipeX.EncryptionFormat

open BigEndian Aead

/-! ## Constants -/

inductive EncryptionAlgorithm where
  | aes256Gcm
  | chacha20Poly1305
deriving DecidableEq, Repr

/-- The name Node knows the algorithm by. -/
def EncryptionAlgorithm.name : EncryptionAlgorithm → String
  | .aes256Gcm => "aes-256-gcm"
  | .chacha20Poly1305 => "chacha20-poly1305"

/-- `'PXAE'`. -/
def magic : Bytes := [0x50, 0x58, 0x41, 0x45]
def version : Nat := 1
def globalHeaderLength : Nat := 28
def frameHeaderLength : Nat := 13
def tagLength : Nat := 16
def frameOverhead : Nat := frameHeaderLength + tagLength
def defaultPlaintextFrameBytes : Nat := 64 * 1024
def dataFrame : Nat := 1
def finalFrame : Nat := 2
def legacyHeaderLength : Nat := 1 + 12 + tagLength

def algorithmIds : EncryptionAlgorithm → Nat
  | .aes256Gcm => 1
  | .chacha20Poly1305 => 2

def idToAlgorithm : Nat → Option EncryptionAlgorithm
  | 1 => some .aes256Gcm
  | 2 => some .chacha20Poly1305
  | _ => none

theorem idToAlgorithm_algorithmIds (a : EncryptionAlgorithm) :
    idToAlgorithm (algorithmIds a) = some a := by
  cases a <;> rfl

/-! ## Parameters -/

/-- What Node's `crypto` contributes: `hkdfSync('sha256', key, salt, info, 32)`
    and the two ciphers with a 16-byte tag. -/
structure Crypto where
  hkdfSync : (key salt info : Bytes) → Bytes
  cipher : Cipher EncryptionAlgorithm tagLength

/-- A stand-in for Node's `crypto` to evaluate with. -/
def checksumCrypto : Crypto where
  hkdfSync key salt info := key ++ salt ++ info
  cipher := Cipher.checksum EncryptionAlgorithm tagLength

structure EncryptionFormatOptions where
  algorithm : EncryptionAlgorithm
  key : Bytes
  frameSizeBytes : Option JsNumber
  allowLegacyDecrypt : Option Bool
deriving DecidableEq, Repr

structure FormatLimits where
  maxInputBytes : Nat
  maxOutputBytes : Nat
  maxFrameBytes : Nat
  maxFrames : Nat
deriving DecidableEq, Repr

/-- The 16 random bytes of a packet. -/
abbrev Salt : Type := { s : Bytes // s.length = 16 }

def zeroSalt : Salt := ⟨List.replicate 16 0, rfl⟩

/-- A frame size that has passed `resolveFrameSize`: positive and 32 bits wide. -/
abbrev FrameSize : Type := { n : Nat // 1 ≤ n ∧ n ≤ 0xffffffff }

structure ParsedHeader where
  bytes : Bytes
  algorithm : EncryptionAlgorithm
  frameSizeBytes : Nat
  salt : Bytes
deriving DecidableEq, Repr

/-! ## Checks on options and limits -/

def assertEncryptionKey (key : Bytes) : Except JsError Unit :=
  if key.length ≠ 32 then .error invalidKeyError else .ok ()

/-- The argument is `context?.limits`. -/
def limitsFor (limits : Option EngineLimits) : FormatLimits where
  maxInputBytes := pluginInputLimit limits
  maxOutputBytes := pluginOutputLimit limits
  maxFrameBytes := (limits.map (·.maxFrameBytes)).getD defaultLimits.maxFrameBytes
  maxFrames := (limits.map (·.maxFrames)).getD defaultLimits.maxFrames

def resolveFrameSize (options : EncryptionFormatOptions) (limits : FormatLimits) :
    Except JsError FrameSize :=
  let capacity : Int := (limits.maxFrameBytes : Int) - frameOverhead
  if capacity < 1 ∨ limits.maxFrameBytes < globalHeaderLength then
    .error (plainError s!"[PipeX] Encryption frame limit {limits.maxFrameBytes} bytes is too small")
  else
    let requested := options.frameSizeBytes.getD
      (.integer (min (defaultPlaintextFrameBytes : Int) capacity))
    let outOfRange := plainError
      "[PipeX] Encryption frameSizeBytes must be a positive 32-bit integer"
    match requested with
    | .nonInteger => .error outOfRange
    | .integer n =>
      if h : (JsNumber.integer n).isSafeInteger = false ∨ n < 1 ∨ n > 0xffffffff then
        .error outOfRange
      else if n > capacity then
        .error (plainError
          s!"[PipeX] Encryption frameSizeBytes exceeds the {limits.maxFrameBytes}-byte frame limit")
      else
        .ok ⟨n.toNat, by omega⟩

/-- A resolved frame fits the frame limit together with its header and tag. -/
theorem resolveFrameSize_le {options : EncryptionFormatOptions} {limits : FormatLimits}
    {f : FrameSize} (h : resolveFrameSize options limits = .ok f) :
    f.val + frameOverhead ≤ limits.maxFrameBytes := by
  simp only [resolveFrameSize] at h
  split at h
  · cases h
  · split at h
    · cases h
    · split at h
      · cases h
      · split at h
        · cases h
        · rename_i n _ hn _
          cases h
          change n.toNat + frameOverhead ≤ limits.maxFrameBytes
          omega

/-- `Math.ceil(plaintextBytes / frameSizeBytes)` data frames, and none for no data. -/
def dataFrameCount (plaintextBytes frameSizeBytes : Nat) : Nat :=
  if plaintextBytes = 0 then 0 else (plaintextBytes + frameSizeBytes - 1) / frameSizeBytes

def encodedLength (plaintextBytes frameSizeBytes : Nat) : Nat :=
  let dataFrames :=
    if plaintextBytes = 0 then 0 else (plaintextBytes + frameSizeBytes - 1) / frameSizeBytes
  globalHeaderLength + plaintextBytes + (dataFrames + 1) * frameOverhead

theorem encodedLength_eq (n f : Nat) :
    encodedLength n f = globalHeaderLength + n + (dataFrameCount n f + 1) * frameOverhead := rfl

theorem dataFrameCount_zero (f : Nat) : dataFrameCount 0 f = 0 := rfl

theorem dataFrameCount_of_le {n f : Nat} (hn : 0 < n) (h : n ≤ f) : dataFrameCount n f = 1 := by
  rw [dataFrameCount, if_neg (by omega)]
  exact Nat.div_eq_of_lt_le (by omega) (by omega)

/-- Each full frame counts one. -/
theorem dataFrameCount_add {n f : Nat} (hf : 0 < f) :
    dataFrameCount (f + n) f = dataFrameCount n f + 1 := by
  rw [dataFrameCount, if_neg (by omega)]
  by_cases hn : n = 0
  · subst hn
    rw [dataFrameCount_zero]
    exact Nat.div_eq_of_lt_le (by omega) (by omega)
  · rw [dataFrameCount, if_neg hn, show f + n + f - 1 = n + f - 1 + f from by omega,
      Nat.add_div_right _ hf]

theorem dataFrameCount_mono {m n : Nat} (f : Nat) (h : m ≤ n) :
    dataFrameCount m f ≤ dataFrameCount n f := by
  by_cases hm : m = 0
  · subst hm
    exact Nat.zero_le _
  · rw [dataFrameCount, dataFrameCount, if_neg hm, if_neg (by omega)]
    exact Nat.div_le_div_right (by omega)

theorem encodedLength_mono {m n : Nat} (f : Nat) (h : m ≤ n) :
    encodedLength m f ≤ encodedLength n f := by
  have := dataFrameCount_mono f h
  rw [encodedLength_eq, encodedLength_eq]
  have := Nat.mul_le_mul_right frameOverhead (Nat.add_le_add_right this 1)
  omega

/-! ## The global header -/

def buildHeader (algorithm : EncryptionAlgorithm) (frameSizeBytes : FrameSize) (salt : Salt) :
    Bytes :=
  magic ++ beBytes 1 version ++ beBytes 1 (algorithmIds algorithm) ++ beBytes 2 0
    ++ beBytes 4 frameSizeBytes.val ++ salt.val

/-- The header of a packet as its decoder reads it. -/
def packetHeader (algorithm : EncryptionAlgorithm) (frameSizeBytes : FrameSize) (salt : Salt) :
    ParsedHeader :=
  ⟨buildHeader algorithm frameSizeBytes salt, algorithm, frameSizeBytes.val, salt.val⟩

def parseHeader (header : Bytes) (limits : FormatLimits) : Except JsError ParsedHeader :=
  if header.length ≠ globalHeaderLength ∨ header.take 4 ≠ magic then
    .error (plainError "[PipeX] Decryption failed: invalid framed header")
  else if beNat ((header.drop 4).take 1) ≠ version then
    .error (plainError "[PipeX] Decryption failed: unsupported format version")
  else
    match idToAlgorithm (beNat ((header.drop 5).take 1)) with
    | none => .error (plainError "[PipeX] Decryption failed: invalid framed header")
    | some algorithm =>
      if beNat ((header.drop 6).take 2) ≠ 0 then
        .error (plainError "[PipeX] Decryption failed: invalid framed header")
      else
        let frameSizeBytes := beNat ((header.drop 8).take 4)
        if frameSizeBytes < 1 ∨
            (frameSizeBytes : Int) > (limits.maxFrameBytes : Int) - frameOverhead then
          .error (plainError "[PipeX] Decryption failed: invalid frame size")
        else
          .ok ⟨header, algorithm, frameSizeBytes, (header.drop 12).take 16⟩

@[simp] theorem buildHeader_length (a : EncryptionAlgorithm) (f : FrameSize) (salt : Salt) :
    (buildHeader a f salt).length = globalHeaderLength := by
  simp [buildHeader, magic, salt.property, globalHeaderLength]

/-- A parsed header is the bytes it was parsed from, salt last. -/
theorem parseHeader_ok {header : Bytes} {limits : FormatLimits} {p : ParsedHeader}
    (h : parseHeader header limits = .ok p) :
    p.bytes = header ∧ header.length = globalHeaderLength ∧ p.salt = (header.drop 12).take 16 ∧
      idToAlgorithm (beNat ((header.drop 5).take 1)) = some p.algorithm ∧
      p.frameSizeBytes = beNat ((header.drop 8).take 4) := by
  simp only [parseHeader] at h
  split at h
  · cases h
  split at h
  · cases h
  split at h
  · cases h
  split at h
  · cases h
  split at h
  · cases h
  rename_i hlen _ _ _ halg _ _
  cases h
  simp only [not_or, Decidable.not_not] at hlen
  exact ⟨rfl, hlen.1, rfl, halg, rfl⟩

/-- The header an encoder builds is the header its decoder reads, where the frame
    size fits the decoder's limit. -/
theorem parseHeader_buildHeader (a : EncryptionAlgorithm) (f : FrameSize) (salt : Salt)
    {limits : FormatLimits} (h : f.val + frameOverhead ≤ limits.maxFrameBytes) :
    parseHeader (buildHeader a f salt) limits = .ok (packetHeader a f salt) := by
  obtain ⟨f, hf1, hf2⟩ := f
  obtain ⟨salt, hs⟩ := salt
  have hsize : beNat (beBytes 4 f) = f := beNat_beBytes (by omega)
  have hlen := buildHeader_length a ⟨f, hf1, hf2⟩ ⟨salt, hs⟩
  have hsplit : ∀ n, (buildHeader a ⟨f, hf1, hf2⟩ ⟨salt, hs⟩).drop n =
      (magic ++ (beBytes 1 version ++ (beBytes 1 (algorithmIds a) ++ (beBytes 2 0
        ++ (beBytes 4 f ++ salt))))).drop n := by
    intro n
    simp only [buildHeader, List.append_assoc]
  have h12 : (buildHeader a ⟨f, hf1, hf2⟩ ⟨salt, hs⟩).drop 12 = salt := by
    rw [hsplit]; simp [magic, beBytes]
  have h8 : ((buildHeader a ⟨f, hf1, hf2⟩ ⟨salt, hs⟩).drop 8).take 4 = beBytes 4 f := by
    rw [hsplit]; simp [magic, beBytes]
  have h6 : beNat (((buildHeader a ⟨f, hf1, hf2⟩ ⟨salt, hs⟩).drop 6).take 2) = 0 := by
    rw [hsplit]; simp [magic, beBytes, beNat]
  have h5 : beNat (((buildHeader a ⟨f, hf1, hf2⟩ ⟨salt, hs⟩).drop 5).take 1) = algorithmIds a := by
    rw [hsplit]; cases a <;> simp [magic, beBytes, algorithmIds, version]
  have h4 : beNat (((buildHeader a ⟨f, hf1, hf2⟩ ⟨salt, hs⟩).drop 4).take 1) = version := by
    rw [hsplit]; simp [magic, beBytes, version]
  have h0 : (buildHeader a ⟨f, hf1, hf2⟩ ⟨salt, hs⟩).take 4 = magic := by
    simp [buildHeader, magic]
  simp only [parseHeader, hlen, h0, h4, h5, h6, h8, h12, hsize, idToAlgorithm_algorithmIds]
  simp only [ne_eq, not_true_eq_false, or_self, if_false]
  rw [if_neg (by simp only at h; omega), List.take_of_length_le (by omega)]
  rfl

/-! ## Key, nonce and frame header -/

/-- The HKDF `info` string. -/
def deriveInfo (algorithm : EncryptionAlgorithm) : Bytes :=
  ("PipeX AEAD framed v" ++ toString version ++ ":" ++ algorithm.name).toList.map
    fun c => UInt8.ofNat c.toNat

def deriveKey (crypto : Crypto) (key : Bytes) (header : ParsedHeader) : Bytes :=
  crypto.hkdfSync key header.salt (deriveInfo header.algorithm)

/-- `buf.writeUIntBE`: values outside the field are refused. -/
def writeUIntBE (width value : Nat) : Except JsError Bytes :=
  if value < 256 ^ width then .ok (beBytes width value) else .error rangeError

/-- 96 bits: four zero bytes and the frame sequence. -/
def nonceFor (sequence : Nat) : Except JsError Bytes :=
  if sequence > 0xffffffffffffffff then
    .error (plainError "[PipeX] Encryption frame sequence exhausted")
  else
    .ok (List.replicate 4 0 ++ beBytes 8 sequence)

def buildFrameHeader (type sequence ciphertextBytes : Nat) : Except JsError Bytes := do
  let type ← writeUIntBE 1 type
  let sequence ← writeUIntBE 8 sequence
  let ciphertextBytes ← writeUIntBE 4 ciphertextBytes
  return type ++ sequence ++ ciphertextBytes

/-- `frameHeader.readUInt8(0)`. -/
def readFrameType (frameHeader : Bytes) : Nat := beNat (frameHeader.take 1)
/-- `frameHeader.readBigUInt64BE(1)`. -/
def readFrameSequence (frameHeader : Bytes) : Nat := beNat ((frameHeader.drop 1).take 8)
/-- `frameHeader.readUInt32BE(9)`. -/
def readCiphertextBytes (frameHeader : Bytes) : Nat := beNat ((frameHeader.drop 9).take 4)

theorem writeUIntBE_ok {width value : Nat} (h : value < 256 ^ width) :
    writeUIntBE width value = .ok (beBytes width value) := if_pos h

theorem writeUIntBE_error {width value : Nat} (h : ¬ value < 256 ^ width) :
    writeUIntBE width value = .error rangeError := if_neg h

/-- Header fields are written exactly when each of them fits. -/
theorem buildFrameHeader_eq (type sequence n : Nat) :
    buildFrameHeader type sequence n =
      if type < 256 ^ 1 ∧ sequence < 256 ^ 8 ∧ n < 256 ^ 4 then
        .ok (beBytes 1 type ++ beBytes 8 sequence ++ beBytes 4 n)
      else .error rangeError := by
  unfold buildFrameHeader
  by_cases hall : type < 256 ^ 1 ∧ sequence < 256 ^ 8 ∧ n < 256 ^ 4
  · obtain ⟨h1, h2, h3⟩ := hall
    rw [writeUIntBE_ok h1, writeUIntBE_ok h2, writeUIntBE_ok h3, if_pos ⟨h1, h2, h3⟩]
    rfl
  · rw [if_neg hall]
    by_cases h1 : type < 256 ^ 1
    · rw [writeUIntBE_ok h1]
      by_cases h2 : sequence < 256 ^ 8
      · rw [writeUIntBE_ok h2, writeUIntBE_error fun h3 => hall ⟨h1, h2, h3⟩]
        rfl
      · rw [writeUIntBE_error h2]
        rfl
    · rw [writeUIntBE_error h1]
      rfl

theorem buildFrameHeader_ok {type sequence n : Nat} {header : Bytes}
    (h : buildFrameHeader type sequence n = .ok header) :
    header.length = frameHeaderLength ∧ readFrameType header = type ∧
      readFrameSequence header = sequence ∧ readCiphertextBytes header = n ∧
      sequence < 2 ^ 64 := by
  rw [buildFrameHeader_eq] at h
  split at h
  · rename_i hfit
    obtain ⟨h1, h2, h3⟩ := hfit
    cases h
    refine ⟨by simp [frameHeaderLength], ?_, ?_, ?_, h2⟩
    · simp only [readFrameType, List.append_assoc]
      rw [List.take_append_of_le_length (by simp), List.take_of_length_le (by simp)]
      exact beNat_beBytes (by omega)
    · simp only [readFrameSequence, List.append_assoc]
      rw [List.drop_left' (by simp), List.take_append_of_le_length (by simp),
        List.take_of_length_le (by simp)]
      exact beNat_beBytes (by omega)
    · simp only [readCiphertextBytes]
      rw [List.drop_left' (by simp), List.take_of_length_le (by simp)]
      exact beNat_beBytes (by omega)
  · cases h

/-- One derived key never sees a nonce twice while sequences differ. -/
theorem nonceFor_inj {m n : Nat} {nonce : Bytes} (hm : nonceFor m = .ok nonce)
    (hn : nonceFor n = .ok nonce) : m = n := by
  simp only [nonceFor] at hm hn
  split at hm
  · cases hm
  split at hn
  · cases hn
  have heq := (Except.ok.inj hm).trans (Except.ok.inj hn).symm
  exact beBytes_inj (by omega) (by omega) (List.append_cancel_left heq)

/-! ## One frame -/

/-- A sealed frame, as `encryptFrame` assembles it, with the cipher call behind
    it. -/
structure SealedFrame where
  type : Nat
  sequence : Nat
  header : Bytes
  call : SealCall EncryptionAlgorithm
deriving DecidableEq, Repr

/-- The frame on the wire.  The tag has 16 bytes, so the length that the source
    passes to `Buffer.concat` is the length of the three parts. -/
def SealedFrame.bytes (f : SealedFrame) : Bytes :=
  f.header ++ f.call.ciphertext ++ f.call.tag

def encryptFrame (crypto : Crypto) (plaintext : Bytes) (type sequence : Nat)
    (algorithm : EncryptionAlgorithm) (key globalHeader : Bytes) : Except JsError SealedFrame := do
  let frameHeader ← buildFrameHeader type sequence plaintext.length
  let nonce ← nonceFor sequence
  return ⟨type, sequence, frameHeader,
    crypto.cipher.sealCall algorithm key nonce (globalHeader ++ frameHeader) plaintext⟩

def decryptFrame (crypto : Crypto) (ciphertext tag frameHeader : Bytes) (sequence : Nat)
    (algorithm : EncryptionAlgorithm) (key globalHeader : Bytes) : Except JsError Bytes := do
  let nonce ← nonceFor sequence
  if tag.length ≠ tagLength then
    .error authenticationError
  else
    match crypto.cipher.decrypt algorithm key nonce (globalHeader ++ frameHeader) ciphertext tag with
    | some plaintext => .ok plaintext
    | none => .error authenticationError

/-- A frame opens exactly when the cipher opens it under its nonce. -/
theorem decryptFrame_ok_iff {crypto : Crypto} {ciphertext tag frameHeader : Bytes} {sequence : Nat}
    {algorithm : EncryptionAlgorithm} {key globalHeader plaintext : Bytes} :
    decryptFrame crypto ciphertext tag frameHeader sequence algorithm key globalHeader
        = .ok plaintext ↔
      tag.length = tagLength ∧ ∃ nonce, nonceFor sequence = .ok nonce ∧
        crypto.cipher.decrypt algorithm key nonce (globalHeader ++ frameHeader) ciphertext tag
          = some plaintext := by
  cases hnonce : nonceFor sequence with
  | error e => simp [decryptFrame, hnonce, bind, Except.bind]
  | ok nonce =>
    simp only [decryptFrame, hnonce, bind, Except.bind]
    by_cases htag : tag.length = tagLength
    · cases hopen : crypto.cipher.decrypt algorithm key nonce (globalHeader ++ frameHeader)
          ciphertext tag <;> simp [htag, hopen]
    · simp [htag]

def decryptLegacy (crypto : Crypto) (data key : Bytes) (limits : FormatLimits) :
    Except JsError Bytes :=
  if data.length < legacyHeaderLength then
    .error (plainError "[PipeX] Decryption failed: packet too short")
  else if data.length - legacyHeaderLength > limits.maxOutputBytes then
    .error (plainError s!"[PipeX] Decryption output exceeds {limits.maxOutputBytes} bytes")
  else
    match idToAlgorithm (beNat (data.take 1)) with
    | none => .error (plainError "[PipeX] Decryption failed: unknown legacy algorithm")
    | some algorithm =>
      -- `setAAD` is never called here: the associated data is empty
      match crypto.cipher.decrypt algorithm key ((data.drop 1).take 12) []
          (data.drop legacyHeaderLength) ((data.drop 13).take tagLength) with
      | some plaintext => .ok plaintext
      | none => .error (plainError "[PipeX] Decryption failed: authentication failed")

def isFramedEncryption (data : Bytes) : Bool :=
  decide (magic.length ≤ data.length) && decide (data.take magic.length = magic)

/-- The checks both decoders make on a complete frame header, in their order.
    `total` is the plaintext released so far. -/
def checkFrameHeader (limits : FormatLimits) (header : ParsedHeader)
    (expectedSequence dataFrames total : Nat) (frameHeader : Bytes) : Except JsError Unit :=
  let type := readFrameType frameHeader
  let sequence := readFrameSequence frameHeader
  let ciphertextBytes := readCiphertextBytes frameHeader
  if sequence ≠ expectedSequence then
    .error (plainError "[PipeX] Decryption failed: invalid frame sequence")
  else if type ≠ dataFrame ∧ type ≠ finalFrame then
    .error (plainError "[PipeX] Decryption failed: invalid frame type")
  else if type = finalFrame ∧ ciphertextBytes ≠ 0 then
    .error (plainError "[PipeX] Decryption failed: invalid final frame")
  else if ciphertextBytes > header.frameSizeBytes ∨
      (ciphertextBytes : Int) > (limits.maxFrameBytes : Int) - frameOverhead then
    .error (plainError "[PipeX] Decryption failed: frame length exceeds configured limit")
  else if type = dataFrame ∧ dataFrames ≥ limits.maxFrames then
    .error (plainError s!"[PipeX] Encryption frame count exceeds {limits.maxFrames}")
  else if type = dataFrame ∧ (ciphertextBytes : Int) > (limits.maxOutputBytes : Int) - total then
    .error (plainError s!"[PipeX] Decryption output exceeds {limits.maxOutputBytes} bytes")
  else
    .ok ()

theorem checkFrameHeader_sequence {limits : FormatLimits} {header : ParsedHeader}
    {expectedSequence dataFrames total : Nat} {frameHeader : Bytes}
    (h : checkFrameHeader limits header expectedSequence dataFrames total frameHeader = .ok ()) :
    readFrameSequence frameHeader = expectedSequence := by
  by_contra hne
  simp only [checkFrameHeader, if_pos hne] at h
  cases h

end PipeX.EncryptionFormat
