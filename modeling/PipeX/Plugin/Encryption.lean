/-
  PipeX.Plugin.Encryption

  `EncryptionPlugin` of `src/plugin/encryption.ts` in front of the format, and its
  legacy gate.

  Both decoders decide on their own whether an input is a legacy packet and
  whether such packets are readable.  `decryptBuffer` asks for
  `allowLegacyDecrypt !== true` and the stream for `allowLegacyDecrypt === false`,
  so they differ where the option is omitted: `legacyRefused_iff` says that the
  gate is open exactly there, for every packet that authenticates.
-/
import PipeX.Core.Plugin
import PipeX.Plugin.EncryptionFormat.ChunkedDecryption

namespace PipeX

open EncryptionFormat Chunked Aead BigEndian

/-! ## The plugin -/

/-- `frameSizeBytes` is omitted or a positive 32-bit integer. -/
def validFrameSize : Option JsNumber → Bool
  | none => true
  | some .nonInteger => false
  | some (.integer n) =>
    (JsNumber.integer n).isSafeInteger && decide (1 ≤ n) && decide (n ≤ 0xffffffff)

/-- A plugin whose constructor returned.  That the algorithm is one of the two and
    the legacy option a boolean is in the types. -/
structure EncryptionPlugin where
  options : EncryptionFormatOptions
  key_length : options.key.length = 32
  frameSize_valid : validFrameSize options.frameSizeBytes = true

namespace EncryptionPlugin

/-- `new EncryptionPlugin(options)`. -/
def create (options : EncryptionFormatOptions) : Except JsError EncryptionPlugin :=
  if hkey : options.key.length = 32 then
    if hsize : validFrameSize options.frameSizeBytes = true then
      .ok ⟨options, hkey, hsize⟩
    else
      .error (encryptionError "[PipeX] Invalid encryption frame size")
  else
    .error invalidKeyError

variable (plugin : EncryptionPlugin) (crypto : Crypto)

/-- `process(data, context)`, with the salt that `encryptBuffer` draws. -/
def process (salt : Salt) (data : Bytes) (contextLimits : Option EngineLimits) :
    Except JsError Bytes :=
  encryptBuffer crypto salt data plugin.options contextLimits

/-- `reverse(data, context)`. -/
def reverse (data : Bytes) (contextLimits : Option EngineLimits) : Except JsError Bytes :=
  decryptBuffer crypto data plugin.options contextLimits

/-- `createStream(mode, context)`, handed the chunks and ended.  Only encryption
    draws the salt. -/
def createStream (salt : Salt) (mode : StreamMode) (contextLimits : Option EngineLimits)
    (chunks : List Bytes) : Emit Bytes JsError Unit :=
  match mode with
  | .compress => encryptStream crypto salt plugin.options contextLimits chunks
  | .decompress => decryptStream crypto plugin.options contextLimits chunks

/-- The format finds the key of a plugin in order. -/
@[simp] theorem assertEncryptionKey_ok : assertEncryptionKey plugin.options.key = .ok () :=
  if_neg (by simp [plugin.key_length])

end EncryptionPlugin

/-! ## The legacy gate -/

/-- A packet that the legacy reader opens: inside the limits, with a known
    algorithm, and sealed under the key. -/
def LegacyReadable (crypto : Crypto) (key : Bytes) (limits : FormatLimits) (data : Bytes) : Prop :=
  legacyHeaderLength ≤ data.length ∧ data.length - legacyHeaderLength ≤ limits.maxOutputBytes ∧
    ∃ algorithm, idToAlgorithm (beNat (data.take 1)) = some algorithm ∧
      (crypto.cipher.decrypt algorithm key ((data.drop 1).take 12) []
        (data.drop legacyHeaderLength) ((data.drop 13).take tagLength)).isSome

theorem decryptLegacy_ok_iff (crypto : Crypto) (key : Bytes) (limits : FormatLimits)
    (data : Bytes) :
    (∃ plaintext, decryptLegacy crypto data key limits = .ok plaintext) ↔
      LegacyReadable crypto key limits data := by
  simp only [decryptLegacy, LegacyReadable]
  -- the checks in the order of the code
  by_cases hlen : data.length < legacyHeaderLength
  · simp [hlen, Nat.not_le_of_lt hlen]
  by_cases hout : data.length - legacyHeaderLength > limits.maxOutputBytes
  · simp [hlen, hout, Nat.not_le_of_lt hout]
  rw [if_neg hlen, if_neg hout]
  cases hid : idToAlgorithm (beNat (data.take 1)) with
  | none => simp
  | some algorithm =>
    cases hopen : crypto.cipher.decrypt algorithm key ((data.drop 1).take 12) []
        (data.drop legacyHeaderLength) ((data.drop 13).take tagLength) with
    | none =>
      simp only [hopen, reduceCtorEq, exists_false, false_iff]
      -- no other algorithm has this identifier
      rintro ⟨-, -, a, ha, hsome⟩
      cases ha
      rw [hopen] at hsome
      cases hsome
    | some plaintext =>
      simp only [hopen]
      refine ⟨fun _ => ?_, fun _ => ⟨plaintext, rfl⟩⟩
      exact ⟨Nat.le_of_not_lt hlen, Nat.le_of_not_lt hout, algorithm, rfl, by rw [hopen]; rfl⟩

/-- The plugin refuses its input on both paths, and the stream has written
    nothing by then. -/
def LegacyRefused (plugin : EncryptionPlugin) (crypto : Crypto) (salt : Salt)
    (contextLimits : Option EngineLimits) (chunks : List Bytes) : Prop :=
  (∃ e, plugin.reverse crypto chunks.flatten contextLimits = .error e) ∧
    (∃ e, (plugin.createStream crypto salt .decompress contextLimits chunks).result = .error e) ∧
    (plugin.createStream crypto salt .decompress contextLimits chunks).out.flatten = []

/-- The buffer path refuses whenever the option is not `true`. -/
theorem reverse_legacy_error (plugin : EncryptionPlugin) (crypto : Crypto)
    (contextLimits : Option EngineLimits) {data : Bytes}
    (hoption : plugin.options.allowLegacyDecrypt ≠ some true) (hhead : data.head? ≠ magic.head?) :
    ∃ e, plugin.reverse crypto data contextLimits = .error e := by
  rw [EncryptionPlugin.reverse, decryptBuffer_eq, plugin.assertEncryptionKey_ok]
  change ∃ e, ite _ _ _ = _
  rw [if_neg hhead, if_pos hoption]
  split <;> exact ⟨_, rfl⟩

/-- The stream path on a legacy packet within the input limit. -/
theorem decompress_legacy (plugin : EncryptionPlugin) (crypto : Crypto) (salt : Salt)
    (contextLimits : Option EngineLimits) {chunks : List Bytes} (hne : chunks.flatten ≠ [])
    (hhead : chunks.flatten.head? ≠ magic.head?)
    (hlim : chunks.flatten.length ≤ (limitsFor contextLimits).maxInputBytes) :
    plugin.createStream crypto salt .decompress contextLimits chunks =
      if plugin.options.allowLegacyDecrypt = some false then
        Emit.fail (plainError "[PipeX] Decryption failed: legacy format disabled")
      else
        Emit.ofExcept (decryptLegacy crypto chunks.flatten plugin.options.key
          (limitsFor contextLimits)) >>= Emit.push := by
  rw [EncryptionPlugin.createStream, decryptStream_eq, plugin.assertEncryptionKey_ok,
    Emit.ofExcept_ok, pure_bind]
  exact DecryptionStream.complete_legacy crypto ⟨_, _, _⟩ chunks hne hhead hlim

/-- Input that is empty or too long ends the stream in an error, and it has
    written nothing. -/
theorem decompress_legacy_error (plugin : EncryptionPlugin) (crypto : Crypto) (salt : Salt)
    (contextLimits : Option EngineLimits) {chunks : List Bytes}
    (hhead : chunks.flatten.head? ≠ magic.head?)
    (h : chunks.flatten = [] ∨ (limitsFor contextLimits).maxInputBytes < chunks.flatten.length) :
    ∃ e, plugin.createStream crypto salt .decompress contextLimits chunks = Emit.fail e := by
  rw [EncryptionPlugin.createStream, decryptStream_eq, plugin.assertEncryptionKey_ok,
    Emit.ofExcept_ok, pure_bind]
  rcases h with hempty | hlim
  · exact ⟨_, DecryptionStream.complete_empty crypto _ chunks hempty⟩
  · obtain ⟨e, hfeed⟩ := DecryptionStream.feed_error_of_lt crypto
      ⟨plugin.options.key, plugin.options.allowLegacyDecrypt, limitsFor contextLimits⟩
      DecryptionState.start chunks (Nat.zero_le _) (by simpa [DecryptionState.start] using hlim)
    refine ⟨e, ?_⟩
    rw [Transform.complete, Emit.bind_error hfeed,
      DecryptionStream.feed_unknown_legacy_out crypto _ _ rfl chunks hhead]
    rfl

/-- Where the option is not `true`, legacy input is refused on both paths if and
    only if the option is `false` or the packet would not open in any case. -/
theorem legacyRefused_iff (plugin : EncryptionPlugin) (crypto : Crypto) (salt : Salt)
    (contextLimits : Option EngineLimits) (chunks : List Bytes)
    (hoption : plugin.options.allowLegacyDecrypt ≠ some true)
    (hhead : chunks.flatten.head? ≠ magic.head?) :
    LegacyRefused plugin crypto salt contextLimits chunks ↔
      plugin.options.allowLegacyDecrypt = some false ∨
        ¬ (chunks.flatten.length ≤ (limitsFor contextLimits).maxInputBytes ∧
          LegacyReadable crypto plugin.options.key (limitsFor contextLimits) chunks.flatten) := by
  have hreverse := reverse_legacy_error plugin crypto contextLimits hoption hhead
  by_cases hfits : chunks.flatten ≠ [] ∧
      chunks.flatten.length ≤ (limitsFor contextLimits).maxInputBytes
  · obtain ⟨hne, hlim⟩ := hfits
    rw [LegacyRefused, decompress_legacy plugin crypto salt contextLimits hne hhead hlim,
      ← decryptLegacy_ok_iff]
    by_cases hgate : plugin.options.allowLegacyDecrypt = some false
    · rw [if_pos hgate]
      exact ⟨fun _ => .inl hgate, fun _ => ⟨hreverse, ⟨_, rfl⟩, rfl⟩⟩
    · rw [if_neg hgate]
      cases hopen : decryptLegacy crypto chunks.flatten plugin.options.key
          (limitsFor contextLimits) with
      | error e =>
        refine ⟨fun _ => .inr ?_, fun _ => ⟨hreverse, ⟨e, rfl⟩, rfl⟩⟩
        rintro ⟨-, plaintext, hok⟩
        cases hok
      | ok plaintext =>
        -- the gate is open and the packet good: the stream goes through
        constructor
        · rintro ⟨-, ⟨e, herror⟩, -⟩
          cases herror
        · rintro (hfalse | hbad)
          · exact absurd hfalse hgate
          · exact absurd ⟨hlim, plaintext, rfl⟩ hbad
  · have hbad : chunks.flatten = [] ∨
        (limitsFor contextLimits).maxInputBytes < chunks.flatten.length := by
      by_cases hempty : chunks.flatten = []
      · exact .inl hempty
      · exact .inr (Nat.lt_of_not_le fun hlim => hfits ⟨hempty, hlim⟩)
    obtain ⟨e, hstream⟩ := decompress_legacy_error plugin crypto salt contextLimits hhead hbad
    rw [LegacyRefused, hstream]
    refine ⟨fun _ => .inr ?_, fun _ => ⟨hreverse, ⟨e, rfl⟩, rfl⟩⟩
    rintro ⟨hlim, hlong, -⟩
    rcases hbad with hempty | hover
    · rw [hempty] at hlong
      exact absurd hlong (by decide)
    · omega

/-! ### An omitted option -/

/-- A plugin that says nothing about legacy packets. -/
def defaultReader : EncryptionPlugin where
  options := ⟨.aes256Gcm, List.replicate 32 7, none, none⟩
  key_length := rfl
  frameSize_valid := rfl

/-- A legacy packet, sealed under the key of `defaultReader` in the v3 layout:
    algorithm id, IV, tag, ciphertext. -/
def legacyPacket : Bytes :=
  let iv := List.replicate 12 3
  let sealed := checksumCrypto.cipher.encrypt .aes256Gcm defaultReader.options.key iv [] [1, 2, 3]
  1 :: iv ++ sealed.2 ++ sealed.1

/-- The stream of `defaultReader` restores a packet that its buffer path refuses. -/
theorem defaultReader_reads_legacy :
    legacyPacket.head? ≠ magic.head? ∧
      defaultReader.reverse checksumCrypto legacyPacket none =
        .error (plainError "[PipeX] Decryption failed: legacy format disabled") ∧
      defaultReader.createStream checksumCrypto zeroSalt .decompress none
        [legacyPacket] = ⟨[[1, 2, 3]], .ok ()⟩ ∧
      ¬ LegacyRefused defaultReader checksumCrypto zeroSalt none
        [legacyPacket] := by
  have hstream : defaultReader.createStream checksumCrypto zeroSalt .decompress
      none [legacyPacket] = ⟨[[1, 2, 3]], .ok ()⟩ := by
    have hopen : decryptLegacy checksumCrypto legacyPacket defaultReader.options.key
        (limitsFor none) = .ok [1, 2, 3] := by decide +kernel
    rw [decompress_legacy defaultReader checksumCrypto _ none (by decide) (by decide) (by decide),
      if_neg (by decide), List.flatten_singleton, hopen]
    rfl
  refine ⟨by decide, by rfl, hstream, ?_⟩
  rintro ⟨-, ⟨e, herror⟩, -⟩
  rw [hstream] at herror
  cases herror

/-- An explicit `false` does refuse that packet. -/
theorem strictReader_refuses_legacy :
    LegacyRefused
      { defaultReader with options := { defaultReader.options with allowLegacyDecrypt := some false } }
      checksumCrypto zeroSalt none [legacyPacket] :=
  (legacyRefused_iff _ _ _ _ _ (by decide) (by decide)).mpr (.inl rfl)

end PipeX
