/-
  PipeX.Plugin.KmsEncryption.Envelope

  `KmsEncryptionPlugin` of `src/plugin/kms_encryption.ts`: the PXKM envelope that
  `process` writes, and the two layouts that `reverse` reads.

  Envelope: magic, version, algorithm, flags, the lengths of the wrapped key and
  of the ciphertext, IV; then the wrapped key, the ciphertext and the tag.  All
  that stands in front of the ciphertext is associated data.
-/
import PipeX.Lib.Aead
import PipeX.Plugin.EncryptionFormat.Format
import PipeX.Plugin.KmsEncryption.Provider

namespace PipeX.KmsEncryption

open BigEndian Aead
open EncryptionFormat (writeUIntBE writeUIntBE_ok writeUIntBE_error)

/-! ## Constants and options -/

def ivLength : Nat := 12
def tagLength : Nat := 16
/-- `'PXKM'`. -/
def magic : Bytes := [0x50, 0x58, 0x4b, 0x4d]
def formatVersion : Nat := 1
def algorithmAes256Gcm : Nat := 1
def fixedHeaderLength : Nat := 4 + 1 + 1 + 2 + 4 + 4 + ivLength

/-- AES-256-GCM with a 16-byte tag. -/
abbrev KmsCipher : Type := Cipher Unit tagLength

/-- `randomBytes(IV_LENGTH)`. -/
abbrev Iv : Type := { iv : Bytes // iv.length = ivLength }

/-- A plugin whose constructor returned. -/
structure KmsEncryptionPlugin where
  kms : KmsProvider
  keyId : String
  allowLegacyDecrypt : Option Bool
  keyId_nonempty : keyId ≠ ""
  generates : assertKmsOperation kms .generateDataKey = .ok ()

/-- `ctx.limits?.maxKmsEncryptedKeyBytes ?? DEFAULT_LIMITS.maxKmsEncryptedKeyBytes`. -/
def maxEncryptedKeyBytes (limits : Option EngineLimits) : Nat :=
  (limits.map (·.maxKmsEncryptedKeyBytes)).getD defaultLimits.maxKmsEncryptedKeyBytes

/-- `ctx.limits?.maxKmsKeyIdBytes ?? DEFAULT_LIMITS.maxKmsKeyIdBytes`. -/
def maxKeyIdBytes (limits : Option EngineLimits) : Nat :=
  (limits.map (·.maxKmsKeyIdBytes)).getD defaultLimits.maxKmsKeyIdBytes

/-! ## Sealing -/

/-- An envelope, with the cipher call behind it. -/
structure Envelope where
  header : Bytes
  encryptedKey : Bytes
  call : SealCall Unit
deriving DecidableEq, Repr

/-- `Buffer.concat([header, encryptedKey, encrypted, tag], outputLength)`. -/
def Envelope.bytes (e : Envelope) : Bytes :=
  bufferConcat [e.header, e.encryptedKey, e.call.ciphertext, e.call.tag]
    (fixedHeaderLength + e.encryptedKey.length + tagLength + e.call.plaintext.length)

/-- The checks of `process` in front of the provider. -/
def checkProcess (plugin : KmsEncryptionPlugin) (data : Bytes) (limits : Option EngineLimits) :
    Except JsError Unit := do
  let maxInputBytes := pluginInputLimit limits
  let maxOutputBytes := pluginOutputLimit limits
  if plugin.keyId.utf8ByteSize > maxKeyIdBytes limits then
    throw (plainError "[PipeX] KMS key identifier exceeds the configured limit")
  if data.length > maxInputBytes then
    throw (plainError s!"[PipeX] KMS encryption input exceeds {maxInputBytes} bytes")
  if data.length > 0xffffffff then
    throw (plainError "[PipeX] KMS encryption input exceeds the format limit")
  let minimumOverhead := fixedHeaderLength + 1 + tagLength
  if (data.length : Int) > (maxOutputBytes : Int) - minimumOverhead then
    throw (plainError s!"[PipeX] KMS encryption output exceeds {maxOutputBytes} bytes")

/-- The header of an envelope. -/
def buildHeader (encryptedKeyBytes dataBytes : Nat) (iv : Iv) : Except JsError Bytes := do
  let keyLen ← writeUIntBE 4 encryptedKeyBytes
  let ciphertextLength ← writeUIntBE 4 dataBytes
  return magic ++ beBytes 1 formatVersion ++ beBytes 1 algorithmAes256Gcm ++ beBytes 2 0 ++ keyLen
    ++ ciphertextLength ++ iv.val

/-- What `process` does with the key that the provider delivers. -/
def sealEnvelope (cipher : KmsCipher) (keyResult : DataKey) (iv : Iv) (data : Bytes)
    (limits : Option EngineLimits) : Except JsError Envelope :=
  let maxOutputBytes := pluginOutputLimit limits
  match keyResult.plaintext with
  | none => .error (plainError "[PipeX] KMS generated an invalid data key")
  | some plaintext =>
    if plaintext.length ≠ 32 then .error (plainError "[PipeX] KMS generated an invalid data key")
    else
      match keyResult.ciphertext with
      | none => .error (plainError "[PipeX] KMS generated an invalid encrypted key")
      | some encryptedKey =>
        if encryptedKey.length < 1 ∨ encryptedKey.length > maxEncryptedKeyBytes limits then
          .error (plainError "[PipeX] KMS generated an invalid encrypted key")
        else
          let overhead := fixedHeaderLength + encryptedKey.length + tagLength
          if (data.length : Int) > (maxOutputBytes : Int) - overhead then
            .error (plainError s!"[PipeX] KMS encryption output exceeds {maxOutputBytes} bytes")
          else
            (buildHeader encryptedKey.length data.length iv).map fun header =>
              ⟨header, encryptedKey,
                cipher.sealCall () plaintext iv.val (header ++ encryptedKey) data⟩

/-- `process(data, ctx)`, with the IV that it draws, up to the last `Buffer.concat`. -/
def processEnvelope (cipher : KmsCipher) (plugin : KmsEncryptionPlugin) (iv : Iv) (data : Bytes)
    (limits : Option EngineLimits) : Except JsError Envelope := do
  checkProcess plugin data limits
  let keyResult ← callProvider plugin.kms .generateDataKey limits
    (plugin.kms.generateDataKey plugin.keyId)
  sealEnvelope cipher keyResult iv data limits

/-- `process(data, ctx)`. -/
def process (cipher : KmsCipher) (plugin : KmsEncryptionPlugin) (iv : Iv) (data : Bytes)
    (limits : Option EngineLimits) : Except JsError Bytes :=
  (processEnvelope cipher plugin iv data limits).map Envelope.bytes

/-! ## Opening -/

/-- What `reverse` cuts an input into; a legacy packet has no authenticated header. -/
structure Parts where
  encryptedKey : Bytes
  iv : Bytes
  tag : Bytes
  ciphertext : Bytes
  authenticatedHeader : Option Bytes
deriving DecidableEq, Repr

/-- `data.subarray(start, end)`. -/
def slice (data : Bytes) (start stop : Nat) : Bytes := (data.take stop).drop start

/-- `data.readUInt32BE(offset)`, and the like for other widths. -/
def readUIntBE (width : Nat) (data : Bytes) (offset : Nat) : Nat :=
  beNat ((data.drop offset).take width)

def parseFramed (data : Bytes) (limits : Option EngineLimits) : Except JsError Parts := do
  let maxOutputBytes := pluginOutputLimit limits
  if data.length < fixedHeaderLength + 1 + tagLength then
    throw (plainError "[PipeX] KMS Decryption: incomplete framed envelope")
  if readUIntBE 1 data 4 ≠ formatVersion then
    throw (plainError "[PipeX] KMS Decryption: unsupported format version")
  if readUIntBE 1 data 5 ≠ algorithmAes256Gcm ∨ readUIntBE 2 data 6 ≠ 0 then
    throw (plainError "[PipeX] KMS Decryption: invalid framed envelope")
  let keyLen := readUIntBE 4 data 8
  let ciphertextLength := readUIntBE 4 data 12
  if keyLen < 1 ∨ keyLen > maxEncryptedKeyBytes limits then
    throw (plainError "[PipeX] KMS Decryption: invalid key envelope")
  let expectedLength := fixedHeaderLength + keyLen + ciphertextLength + tagLength
  if expectedLength ≠ data.length then
    throw (plainError "[PipeX] KMS Decryption: invalid envelope length")
  if ciphertextLength > maxOutputBytes then
    throw (plainError s!"[PipeX] KMS decryption output exceeds {maxOutputBytes} bytes")
  return {
    iv := slice data 16 fixedHeaderLength
    encryptedKey := slice data fixedHeaderLength (fixedHeaderLength + keyLen)
    ciphertext := slice data (fixedHeaderLength + keyLen) (data.length - tagLength)
    tag := data.drop (data.length - tagLength)
    authenticatedHeader := some (data.take (fixedHeaderLength + keyLen)) }

def parseLegacy (data : Bytes) (limits : Option EngineLimits) : Except JsError Parts := do
  if data.length < 4 then throw (plainError "[PipeX] KMS Decryption: Packet too short")
  let keyLen := readUIntBE 4 data 0
  if keyLen < 1 ∨ keyLen > maxEncryptedKeyBytes limits ∨
      data.length < 4 + keyLen + ivLength + tagLength then
    throw (plainError "[PipeX] KMS Decryption: invalid key envelope")
  return {
    encryptedKey := slice data 4 (4 + keyLen)
    iv := slice data (4 + keyLen) (4 + keyLen + ivLength)
    tag := slice data (4 + keyLen + ivLength) (4 + keyLen + ivLength + tagLength)
    ciphertext := data.drop (4 + keyLen + ivLength + tagLength)
    authenticatedHeader := none }

/-- `reverse(data, ctx)` up to the call of the provider. -/
def parse (plugin : KmsEncryptionPlugin) (data : Bytes) (limits : Option EngineLimits) :
    Except JsError Parts := do
  assertKmsOperation plugin.kms .decrypt
  let maxInputBytes := pluginInputLimit limits
  let maxOutputBytes := pluginOutputLimit limits
  if plugin.keyId.utf8ByteSize > maxKeyIdBytes limits then
    throw (plainError "[PipeX] KMS key identifier exceeds the configured limit")
  if data.length > maxInputBytes then
    throw (plainError s!"[PipeX] KMS decryption input exceeds {maxInputBytes} bytes")
  if data.length = 0 then throw (plainError "[PipeX] KMS Decryption: Packet too short")
  let framed := decide (data.length ≥ magic.length) && decide (data.take magic.length = magic)
  if framed = false ∧ data.head? = magic.head? then
    throw (plainError "[PipeX] KMS Decryption: incomplete framed header")
  if framed = false ∧ plugin.allowLegacyDecrypt ≠ some true then
    throw (plainError "[PipeX] KMS Decryption: legacy format disabled")
  let parts ← if framed then parseFramed data limits else parseLegacy data limits
  if parts.ciphertext.length > maxOutputBytes then
    throw (plainError s!"[PipeX] KMS decryption output exceeds {maxOutputBytes} bytes")
  return parts

/-- What `reverse` does with the key that the provider delivers.  Without
    `setAAD` the associated data is empty. -/
def openEnvelope (cipher : KmsCipher) (plaintext : Option Bytes) (parts : Parts) :
    Except JsError Bytes :=
  match plaintext with
  | none => .error (plainError "[PipeX] KMS Decryption: invalid data key length")
  | some key =>
    if key.length ≠ 32 then
      .error (plainError "[PipeX] KMS Decryption: invalid data key length")
    else
      match cipher.decrypt () key parts.iv (parts.authenticatedHeader.getD []) parts.ciphertext
          parts.tag with
      | some plaintext => .ok plaintext
      | none => .error kmsAuthenticationError

/-- `reverse(data, ctx)`. -/
def reverse (cipher : KmsCipher) (plugin : KmsEncryptionPlugin) (data : Bytes)
    (limits : Option EngineLimits) : Except JsError Bytes := do
  let parts ← parse plugin data limits
  let plaintext ← callProvider plugin.kms .decrypt limits
    (plugin.kms.decrypt parts.encryptedKey plugin.keyId)
  openEnvelope cipher plaintext parts

end PipeX.KmsEncryption
