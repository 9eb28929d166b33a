/-
  PipeX.Plugin.KmsEncryption.Numbers

  `process` of `src/plugin/kms_encryption.ts` over the numbers of JavaScript.

  `process_refines` says that it is the one over integers: the subtractions in its checks
  may go below zero, but they stay exact, and the lengths fit their fields.
-/
import PipeX.Core.DataEngine.Limits
import PipeX.Plugin.KmsEncryption.Envelope
import PipeX.Plugin.WireFields

namespace PipeX.KmsEncryption.Numbers

open Chunked BigEndian Aead Shadowed Wire

variable {ο : Type}

/-! ## process -/

/-- The checks of `process` in front of the provider. -/
def checkProcess (plugin : KmsEncryptionPlugin) (data : Bytes) (limits : Option EngineLimits) :
    Wire ο Unit := do
  let maxInputBytes := pluginInputLimit limits
  let maxOutputBytes := pluginOutputLimit limits
  throwIf ((plugin.keyId.utf8ByteSize : Shadowed).gt (maxKeyIdBytes limits))
    (plainError "[PipeX] KMS key identifier exceeds the configured limit")
  throwIf ((data.length : Shadowed).gt maxInputBytes)
    (plainError s!"[PipeX] KMS encryption input exceeds {maxInputBytes} bytes")
  throwIf ((data.length : Shadowed).gt 0xffffffff)
    (plainError "[PipeX] KMS encryption input exceeds the format limit")
  let minimumOverhead : Shadowed := fixedHeaderLength + 1 + tagLength
  throwIf ((data.length : Shadowed).gt ((maxOutputBytes : Shadowed) - minimumOverhead))
    (plainError s!"[PipeX] KMS encryption output exceeds {maxOutputBytes} bytes")

/-- The header of an envelope. -/
def buildHeader (encryptedKeyBytes dataBytes : Shadowed) (iv : Iv) : Wire ο Bytes := do
  let version ← Wire.writeUIntBE 1 formatVersion
  let algorithm ← Wire.writeUIntBE 1 algorithmAes256Gcm
  let flags ← Wire.writeUIntBE 2 0
  let keyLen ← Wire.writeUIntBE 4 encryptedKeyBytes
  let ciphertextLength ← Wire.writeUIntBE 4 dataBytes
  return magic ++ version ++ algorithm ++ flags ++ keyLen ++ ciphertextLength ++ iv.val

/-- What `process` does with the key that the provider delivers. -/
def sealEnvelope (cipher : KmsCipher) (keyResult : DataKey) (iv : Iv) (data : Bytes)
    (limits : Option EngineLimits) : Wire ο Bytes :=
  let maxOutputBytes := pluginOutputLimit limits
  let invalidDataKey := plainError "[PipeX] KMS generated an invalid data key"
  let invalidEncryptedKey := plainError "[PipeX] KMS generated an invalid encrypted key"
  match keyResult.plaintext with
  | none => Emit.fail invalidDataKey
  | some plaintext =>
    if plaintext.length ≠ 32 then Emit.fail invalidDataKey
    else
      match keyResult.ciphertext with
      | none => Emit.fail invalidEncryptedKey
      | some encryptedKey => do
        throwIf ((encryptedKey.length : Shadowed).lt 1) invalidEncryptedKey
        throwIf ((encryptedKey.length : Shadowed).gt (maxEncryptedKeyBytes limits))
          invalidEncryptedKey
        let overhead : Shadowed := fixedHeaderLength + encryptedKey.length + tagLength
        throwIf ((data.length : Shadowed).gt ((maxOutputBytes : Shadowed) - overhead))
          (plainError s!"[PipeX] KMS encryption output exceeds {maxOutputBytes} bytes")
        let outputLength := overhead + data.length
        let header ← buildHeader encryptedKey.length data.length iv
        let call := cipher.sealCall () plaintext iv.val (header ++ encryptedKey) data
        Wire.bufferConcat [header, encryptedKey, call.ciphertext, call.tag] outputLength

/-- `process(data, ctx)`. -/
def process (cipher : KmsCipher) (plugin : KmsEncryptionPlugin) (iv : Iv) (data : Bytes)
    (limits : Option EngineLimits) : Wire ο Bytes := do
  checkProcess plugin data limits
  let keyResult ← callProvider plugin.kms .generateDataKey limits
    (plugin.kms.generateDataKey plugin.keyId)
  sealEnvelope cipher keyResult iv data limits

/-! ## Refinement -/

/-- The limits that `process` reads, where an engine has accepted them. -/
structure SafeLimits (limits : Option EngineLimits) : Prop where
  input : pluginInputLimit limits < 2 ^ 53
  output : pluginOutputLimit limits < 2 ^ 53
  keyId : maxKeyIdBytes limits < 2 ^ 53
  encryptedKey : maxEncryptedKeyBytes limits ≤ 0xffffffff

theorem safeLimits (limits : Option AcceptedLimits) : SafeLimits (limits.map Subtype.val) := by
  refine ⟨pluginInputLimit_lt_two_pow limits, pluginOutputLimit_lt_two_pow limits, ?_, ?_⟩
  · cases limits with
    | none => decide
    | some limits => exact limits.property.lt_two_pow .maxKmsKeyIdBytes
  · cases limits with
    | none => decide
    | some limits => exact limits.property.keyBytes

/-- What is left of the output limit behind an overhead of 32 bits; it may be negative. -/
theorem outputLeft_gt {limits : Option EngineLimits} (hlimits : SafeLimits limits)
    {overhead : Shadowed} {n : ℕ} (hoverhead : overhead.Tracks n) (hn : n < 2 ^ 33)
    (data : Bytes) :
    ((data.length : Shadowed).gt ((pluginOutputLimit limits : Shadowed) - overhead)).Decides
      ((data.length : ℤ) > (pluginOutputLimit limits : ℤ) - n) := by
  have houtput := hlimits.output
  have hleft := (tracks_natCast (pluginOutputLimit limits)).sub hoverhead houtput (by omega)
  exact (tracks_natCast data.length).gt hleft (by omega)

theorem checkProcess_refines (plugin : KmsEncryptionPlugin) (data : Bytes)
    {limits : Option EngineLimits} (hlimits : SafeLimits limits) :
    Refines FieldValue.Fits (fun _ _ => data.length ≤ 0xffffffff)
      (checkProcess plugin data limits : Wire ο Unit)
      (Emit.ofExcept (KmsEncryption.checkProcess plugin data limits)) := by
  have hdata := tracks_natCast data.length
  have hoverhead := ((tracks_natCast fixedHeaderLength).add (tracks_ofNat 1)).add
    (tracks_natCast tagLength)
  refine throwIf_refines_except ((tracks_natCast _).gt_nat (tracks_natCast _) hlimits.keyId)
    fun _ => ?_
  refine throwIf_refines_except (hdata.gt_nat (tracks_natCast _) hlimits.input)
    fun _ => ?_
  refine throwIf_refines_except (hdata.gt_nat (tracks_ofNat 0xffffffff) (by decide))
    fun hformat => ?_
  exact (throwIf_refines_last (outputLeft_gt hlimits hoverhead (by decide) data)).mono
    fun _ _ _ => not_lt.mp hformat

/-- Lengths that fit make a header. -/
theorem buildHeader_refines (keyBytes dataBytes : ℕ) (iv : Iv) (hkey : keyBytes < 256 ^ 4)
    (hdata : dataBytes < 256 ^ 4) :
    ∃ header, KmsEncryption.buildHeader keyBytes dataBytes iv = .ok header ∧
      Refines FieldValue.Fits Eq (buildHeader keyBytes dataBytes iv : Wire ο Bytes)
        (pure header) := by
  refine ⟨magic ++ beBytes 1 formatVersion ++ beBytes 1 algorithmAes256Gcm ++ beBytes 2 0
    ++ beBytes 4 keyBytes ++ beBytes 4 dataBytes ++ iv.val, ?_, ?_⟩
  · rw [KmsEncryption.buildHeader, EncryptionFormat.writeUIntBE_ok hkey,
      EncryptionFormat.writeUIntBE_ok hdata]
    rfl
  refine Simulates.bind_left (writeUIntBE_fits (by decide) (by decide)) fun _ h1 => ?_
  refine Simulates.bind_left (writeUIntBE_fits (by decide) (by decide)) fun _ h2 => ?_
  refine Simulates.bind_left (writeUIntBE_fits (by decide) (by decide)) fun _ h3 => ?_
  refine Simulates.bind_left (writeUIntBE_fits (by decide) hkey) fun _ h4 => ?_
  refine Simulates.bind_left (writeUIntBE_fits (by decide) hdata) fun _ h5 => ?_
  rw [h1, h2, h3, h4, h5]
  exact .pure rfl

theorem sealEnvelope_refines (cipher : KmsCipher) (keyResult : DataKey) (iv : Iv) {data : Bytes}
    {limits : Option EngineLimits} (hlimits : SafeLimits limits)
    (hdata : data.length ≤ 0xffffffff) :
    Refines FieldValue.Fits Eq (sealEnvelope cipher keyResult iv data limits : Wire ο Bytes)
      (Emit.ofExcept
        ((KmsEncryption.sealEnvelope cipher keyResult iv data limits).map Envelope.bytes)) := by
  rw [sealEnvelope, KmsEncryption.sealEnvelope]
  cases keyResult.plaintext with
  | none => exact .fail _
  | some plaintext =>
    dsimp only
    by_cases hlength : plaintext.length ≠ 32
    · rw [if_pos hlength, if_pos hlength]
      exact .fail _
    rw [if_neg hlength, if_neg hlength]
    cases keyResult.ciphertext with
    | none => exact .fail _
    | some encryptedKey =>
      dsimp only
      have hkeyLimit := hlimits.encryptedKey
      have hkey := tracks_natCast encryptedKey.length
      rw [ite_or, apply_ite (Except.map Envelope.bytes), apply_ite (Except.map Envelope.bytes),
        apply_ite (Except.map Envelope.bytes)]
      refine throwIf_refines_except (hkey.lt_nat (tracks_ofNat 1) (by decide))
        fun _ => ?_
      refine throwIf_refines_except (hkey.gt_nat (tracks_natCast _) (by omega))
        fun hlong => ?_
      have hoverhead := ((tracks_natCast fixedHeaderLength).add hkey).add (tracks_natCast tagLength)
      have hsmall : fixedHeaderLength + encryptedKey.length + tagLength < 2 ^ 33 := by
        simp only [fixedHeaderLength, ivLength, tagLength]
        omega
      refine throwIf_refines_except (outputLeft_gt hlimits hoverhead hsmall data) fun _ => ?_
      obtain ⟨header, hheader, hrefines⟩ := @buildHeader_refines ο encryptedKey.length data.length
        iv (by omega) (by omega)
      rw [hheader]
      refine Simulates.bind_left hrefines fun _ h => ?_
      rw [h]
      have hall : fixedHeaderLength + encryptedKey.length + tagLength + data.length < 2 ^ 53 := by
        omega
      exact bufferConcat_refines (hoverhead.add (tracks_natCast data.length)) hall

/-- The two halves of `process` make one. -/
theorem process_eq (cipher : KmsCipher) (plugin : KmsEncryptionPlugin) (iv : Iv) (data : Bytes)
    (limits : Option EngineLimits) :
    KmsEncryption.process cipher plugin iv data limits = (do
      KmsEncryption.checkProcess plugin data limits
      let keyResult ← callProvider plugin.kms .generateDataKey limits
        (plugin.kms.generateDataKey plugin.keyId)
      (KmsEncryption.sealEnvelope cipher keyResult iv data limits).map Envelope.bytes) := by
  show Envelope.bytes <$> processEnvelope cipher plugin iv data limits = _
  simp only [processEnvelope, map_bind]
  rfl

theorem process_refines (cipher : KmsCipher) (plugin : KmsEncryptionPlugin) (iv : Iv) (data : Bytes)
    {limits : Option EngineLimits} (hlimits : SafeLimits limits) :
    Refines FieldValue.Fits Eq (process cipher plugin iv data limits : Wire ο Bytes)
      (Emit.ofExcept (KmsEncryption.process cipher plugin iv data limits)) := by
  rw [process_eq]
  refine Simulates.bind_except (checkProcess_refines plugin data hlimits) fun _ _ hdata => ?_
  refine Simulates.bind_except (.ofExcept _) fun _ keyResult hkey => ?_
  rw [hkey]
  exact sealEnvelope_refines cipher keyResult iv hlimits hdata

end PipeX.KmsEncryption.Numbers
