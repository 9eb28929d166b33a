/-
  PipeX.Plugin.KmsEncryption.Exactness

  With an ideal cipher, `reverse` accepts exactly the envelopes that `process`
  produced.

  Soundness: the associated data of an envelope is all that stands in front of its
  ciphertext, so that a cipher call determines the whole envelope (`parseFramed_ok`).
  Completeness: every check of `reverse` follows from one of `process`
  (`parse_envelope`).
-/
import PipeX.Plugin.KmsEncryption.Envelope

namespace PipeX.KmsEncryption

open BigEndian Aead
open EncryptionFormat (writeUIntBE writeUIntBE_ok writeUIntBE_error)

/-! ## What `process` makes sure of -/

/-- What the checks of `process` leave of its input. -/
structure Checked (plugin : KmsEncryptionPlugin) (data : Bytes) (limits : Option EngineLimits) :
    Prop where
  keyId : plugin.keyId.utf8ByteSize ≤ maxKeyIdBytes limits
  format : data.length ≤ 0xffffffff

theorem checkProcess_ok {plugin : KmsEncryptionPlugin} {data : Bytes}
    {limits : Option EngineLimits} (h : checkProcess plugin data limits = .ok ()) :
    Checked plugin data limits := by
  simp only [checkProcess, bind, Except.bind, throw, throwThe, MonadExceptOf.throw] at h
  split at h
  · cases h
  rename_i hkey
  split at h
  · cases h
  split at h
  · cases h
  rename_i hformat
  exact ⟨Nat.le_of_not_lt hkey, Nat.le_of_not_lt hformat⟩

/-- The header fields of an envelope, in place. -/
def headerFields (keyBytes dataBytes : Nat) (iv : Iv) : Bytes :=
  magic ++ beBytes 1 formatVersion ++ beBytes 1 algorithmAes256Gcm ++ beBytes 2 0
    ++ beBytes 4 keyBytes ++ beBytes 4 dataBytes ++ iv.val

theorem headerFields_length (keyBytes dataBytes : Nat) (iv : Iv) :
    (headerFields keyBytes dataBytes iv).length = fixedHeaderLength := by
  simp only [headerFields, List.length_append, beBytes_length, iv.property]
  rfl

theorem buildHeader_ok {keyBytes dataBytes : Nat} {iv : Iv} {header : Bytes}
    (h : buildHeader keyBytes dataBytes iv = .ok header) :
    header = headerFields keyBytes dataBytes iv ∧ keyBytes < 256 ^ 4 ∧ dataBytes < 256 ^ 4 := by
  by_cases hkey : keyBytes < 256 ^ 4
  · by_cases hdata : dataBytes < 256 ^ 4
    · simp only [buildHeader, writeUIntBE_ok hkey, writeUIntBE_ok hdata] at h
      cases h
      exact ⟨rfl, hkey, hdata⟩
    · simp only [buildHeader, writeUIntBE_ok hkey, writeUIntBE_error hdata] at h
      cases h
  · simp only [buildHeader, writeUIntBE_error hkey] at h
    cases h

/-- An envelope of `data` under the key of `keyResult`, with all that its checks
    imply. -/
structure Sealed (cipher : KmsCipher) (keyResult : DataKey) (iv : Iv) (data : Bytes)
    (limits : Option EngineLimits) (e : Envelope) (key : Bytes) : Prop where
  plaintext : keyResult.plaintext = some key
  ciphertext : keyResult.ciphertext = some e.encryptedKey
  key_length : key.length = 32
  wrapped_pos : 1 ≤ e.encryptedKey.length
  wrapped_le : e.encryptedKey.length ≤ maxEncryptedKeyBytes limits
  wrapped_lt : e.encryptedKey.length < 256 ^ 4
  data_lt : data.length < 256 ^ 4
  output : fixedHeaderLength + e.encryptedKey.length + tagLength + data.length ≤
    pluginOutputLimit limits
  header : e.header = headerFields e.encryptedKey.length data.length iv
  call : e.call = cipher.sealCall () key iv.val (e.header ++ e.encryptedKey) data

theorem sealEnvelope_ok {cipher : KmsCipher} {keyResult : DataKey} {iv : Iv} {data : Bytes}
    {limits : Option EngineLimits} {e : Envelope}
    (h : sealEnvelope cipher keyResult iv data limits = .ok e) :
    ∃ key, Sealed cipher keyResult iv data limits e key := by
  unfold sealEnvelope at h
  simp only at h
  -- each check that throws is none of an envelope that was made
  split at h
  · cases h
  rename_i key hplaintext
  split at h
  · cases h
  rename_i hlength
  split at h
  · cases h
  rename_i encryptedKey hciphertext
  split at h
  · cases h
  rename_i hwrapped
  split at h
  · cases h
  rename_i houtput
  cases hheader : buildHeader encryptedKey.length data.length iv with
  | error err =>
    rw [hheader] at h
    cases h
  | ok header =>
    rw [hheader] at h
    cases h
    obtain ⟨rfl, hkeyBytes, hdataBytes⟩ := buildHeader_ok hheader
    exact ⟨key, hplaintext, hciphertext, by omega, by show 1 ≤ encryptedKey.length; omega,
      by show encryptedKey.length ≤ _; omega, hkeyBytes, hdataBytes,
      by show fixedHeaderLength + encryptedKey.length + tagLength + data.length ≤ _; omega, rfl, rfl⟩

/-- The parts of an envelope in a row. -/
theorem Sealed.bytes_eq {cipher : KmsCipher} {keyResult : DataKey} {iv : Iv} {data : Bytes}
    {limits : Option EngineLimits} {e : Envelope} {key : Bytes}
    (h : Sealed cipher keyResult iv data limits e key) :
    e.bytes = e.call.aad ++ e.call.ciphertext ++ e.call.tag ∧
      e.call.aad = e.header ++ e.encryptedKey ∧ e.header.length = fixedHeaderLength ∧
      e.call.ciphertext.length = data.length ∧ e.call.tag.length = tagLength := by
  have hheader : e.header.length = fixedHeaderLength := by
    rw [h.header, headerFields_length]
  have hciphertext : e.call.ciphertext.length = data.length := by
    rw [h.call]
    exact cipher.ciphertext_length () _ _ _ _
  have htag : e.call.tag.length = tagLength := by
    rw [h.call]
    exact cipher.tag_length () _ _ _ _
  have haad : e.call.aad = e.header ++ e.encryptedKey := by
    rw [h.call]
    rfl
  have hplaintext : e.call.plaintext = data := by
    rw [h.call]
    rfl
  refine ⟨?_, haad, hheader, hciphertext, htag⟩
  rw [Envelope.bytes, bufferConcat_eq_flatten, haad]
  · simp
  · -- the length that is passed to `concat` is the real one
    simp only [List.flatten_cons, List.flatten_nil, List.append_nil, List.length_append, hheader,
      hciphertext, htag, hplaintext]
    omega

theorem processEnvelope_ok {cipher : KmsCipher} {plugin : KmsEncryptionPlugin} {iv : Iv}
    {data : Bytes} {limits : Option EngineLimits} {e : Envelope}
    (h : processEnvelope cipher plugin iv data limits = .ok e) :
    Checked plugin data limits ∧ checkTimeout limits = .ok () ∧
      ∃ keyResult key, plugin.kms.generateDataKey plugin.keyId = .resolves keyResult ∧
        Sealed cipher keyResult iv data limits e key := by
  unfold processEnvelope at h
  cases hcheck : checkProcess plugin data limits with
  | error err =>
    rw [hcheck] at h
    cases h
  | ok _ =>
    rw [hcheck] at h
    -- the checks pass, then the provider is called
    cases hcall : callProvider plugin.kms .generateDataKey limits
        (plugin.kms.generateDataKey plugin.keyId) with
    | error err =>
      rw [hcall] at h
      cases h
    | ok keyResult =>
      rw [hcall] at h
      obtain ⟨-, htimeout, hresolves⟩ := callProvider_ok_iff.mp hcall
      obtain ⟨key, hsealed⟩ := sealEnvelope_ok h
      exact ⟨checkProcess_ok hcheck, htimeout, keyResult, key, hresolves, hsealed⟩

/-! ## What `reverse` cuts out -/

/-- A slice goes on where the one before it ended. -/
theorem take_append_slice (data : Bytes) {start stop : Nat} (h : start ≤ stop) :
    data.take start ++ slice data start stop = data.take stop := by
  have htake : data.take start = (data.take stop).take start := by
    rw [List.take_take, Nat.min_eq_left h]
  rw [slice, htake, List.take_append_drop]

/-- The slice between two other parts. -/
theorem slice_append {front part : Bytes} {start stop : Nat} (hstart : front.length = start)
    (hstop : front.length + part.length = stop) (rest : Bytes) :
    slice (front ++ part ++ rest) start stop = part := by
  have htake : (front ++ part ++ rest).take stop = front ++ part := by
    rw [← hstop, ← List.length_append, List.take_left]
  rw [slice, htake, ← hstart, List.drop_left]

/-- The number that a field holds. -/
theorem readUIntBE_append {front : Bytes} {width value offset : Nat} (hfront : front.length = offset)
    (hvalue : value < 256 ^ width) (rest : Bytes) :
    readUIntBE width (front ++ beBytes width value ++ rest) offset = value := by
  have hlength := beBytes_length width value
  rw [readUIntBE, List.append_assoc, ← hfront, List.drop_left, List.take_left' hlength,
    beNat_beBytes hvalue]

/-- The three slices that the cipher sees make up the input. -/
theorem parseFramed_ok {data : Bytes} {limits : Option EngineLimits} {parts : Parts}
    (h : parseFramed data limits = .ok parts) :
    ∃ authenticatedHeader, parts.authenticatedHeader = some authenticatedHeader ∧
      authenticatedHeader ++ parts.ciphertext ++ parts.tag = data := by
  simp only [parseFramed, bind, Except.bind, pure, Except.pure, throw, throwThe,
    MonadExceptOf.throw] at h
  split at h
  · cases h
  split at h
  · cases h
  split at h
  · cases h
  split at h
  · cases h
  split at h
  · cases h
  rename_i hexpected
  split at h
  · cases h
  cases h
  refine ⟨_, rfl, ?_⟩
  -- the ciphertext lies between the end of the key and the tag
  have hle : fixedHeaderLength + readUIntBE 4 data 8 ≤ data.length - tagLength := by omega
  show data.take _ ++ slice data _ _ ++ data.drop _ = data
  rw [take_append_slice data hle, List.take_append_drop]

/-- The fields of a header are read back, whatever stands behind it. -/
theorem read_headerFields {keyBytes dataBytes : Nat} {iv : Iv} (hkey : keyBytes < 256 ^ 4)
    (hdata : dataBytes < 256 ^ 4) (rest : Bytes) :
    readUIntBE 1 (headerFields keyBytes dataBytes iv ++ rest) 4 = formatVersion ∧
      readUIntBE 1 (headerFields keyBytes dataBytes iv ++ rest) 5 = algorithmAes256Gcm ∧
      readUIntBE 2 (headerFields keyBytes dataBytes iv ++ rest) 6 = 0 ∧
      readUIntBE 4 (headerFields keyBytes dataBytes iv ++ rest) 8 = keyBytes ∧
      readUIntBE 4 (headerFields keyBytes dataBytes iv ++ rest) 12 = dataBytes ∧
      slice (headerFields keyBytes dataBytes iv ++ rest) 16 fixedHeaderLength = iv.val := by
  -- each field is read behind the fields in front of it
  refine ⟨?_, ?_, ?_, ?_, ?_, ?_⟩
  · have hread := @readUIntBE_append magic 1 formatVersion 4 rfl (by decide)
    simpa [headerFields] using hread (beBytes 1 algorithmAes256Gcm ++ beBytes 2 0
      ++ beBytes 4 keyBytes ++ beBytes 4 dataBytes ++ iv.val ++ rest)
  · have hread := @readUIntBE_append (magic ++ beBytes 1 formatVersion) 1 algorithmAes256Gcm 5 rfl
      (by decide)
    simpa [headerFields] using hread (beBytes 2 0 ++ beBytes 4 keyBytes ++ beBytes 4 dataBytes
      ++ iv.val ++ rest)
  · have hread := @readUIntBE_append
      (magic ++ beBytes 1 formatVersion ++ beBytes 1 algorithmAes256Gcm) 2 0 6 rfl (by decide)
    simpa [headerFields] using hread (beBytes 4 keyBytes ++ beBytes 4 dataBytes ++ iv.val ++ rest)
  · have hread := @readUIntBE_append
      (magic ++ beBytes 1 formatVersion ++ beBytes 1 algorithmAes256Gcm ++ beBytes 2 0) 4 keyBytes 8
      rfl hkey
    simpa [headerFields] using hread (beBytes 4 dataBytes ++ iv.val ++ rest)
  · have hread := @readUIntBE_append
      (magic ++ beBytes 1 formatVersion ++ beBytes 1 algorithmAes256Gcm ++ beBytes 2 0
        ++ beBytes 4 keyBytes) 4 dataBytes 12 (by simp [magic]) hdata
    simpa [headerFields] using hread (iv.val ++ rest)
  · apply slice_append
    · simp [magic]
    · simp only [List.length_append, beBytes_length, iv.property]
      rfl

/-- Every check of `reverse` follows from one of `process`. -/
theorem parse_envelope {cipher : KmsCipher} {keyResult : DataKey} {iv : Iv} {data : Bytes}
    {limits : Option EngineLimits} {e : Envelope} {key : Bytes}
    (h : Sealed cipher keyResult iv data limits e key) {plugin : KmsEncryptionPlugin}
    (hdecrypt : assertKmsOperation plugin.kms .decrypt = .ok ())
    (hkeyId : plugin.keyId.utf8ByteSize ≤ maxKeyIdBytes limits) :
    parse plugin e.bytes limits =
      .ok ⟨e.encryptedKey, iv.val, e.call.tag, e.call.ciphertext, some e.call.aad⟩ := by
  obtain ⟨hbytes, haad, hheader, hciphertext, htag⟩ := h.bytes_eq
  have hlength : e.bytes.length =
      fixedHeaderLength + e.encryptedKey.length + data.length + tagLength := by
    rw [hbytes, haad]
    simp only [List.length_append, hheader, hciphertext, htag]
  have hfields : e.bytes = headerFields e.encryptedKey.length data.length iv
      ++ (e.encryptedKey ++ e.call.ciphertext ++ e.call.tag) := by
    rw [hbytes, haad, h.header]
    simp only [List.append_assoc]
  obtain ⟨hversion, halgorithm, hflags, hkeyLen, hdataLen, hiv⟩ :=
    @read_headerFields _ _ iv h.wrapped_lt h.data_lt
      (e.encryptedKey ++ e.call.ciphertext ++ e.call.tag)
  rw [← hfields] at hversion halgorithm hflags hkeyLen hdataLen hiv
  have haadLength : e.call.aad.length = fixedHeaderLength + e.encryptedKey.length := by
    rw [haad, List.length_append, hheader]
  -- the slices of the two lengths are the parts that were put together
  have hslice : slice e.bytes fixedHeaderLength (fixedHeaderLength + e.encryptedKey.length) =
      e.encryptedKey := by
    have heq : e.bytes = e.header ++ e.encryptedKey ++ (e.call.ciphertext ++ e.call.tag) := by
      rw [hbytes, haad]
      simp only [List.append_assoc]
    rw [heq]
    exact slice_append hheader (by rw [hheader]) _
  have htake : e.bytes.take (fixedHeaderLength + e.encryptedKey.length) = e.call.aad := by
    rw [hbytes, List.append_assoc, ← haadLength, List.take_left]
  have hciphertextSlice : slice e.bytes (fixedHeaderLength + e.encryptedKey.length)
      (e.bytes.length - tagLength) = e.call.ciphertext := by
    have hstop : e.call.aad.length + e.call.ciphertext.length = e.bytes.length - tagLength := by
      omega
    have hslice := slice_append haadLength hstop e.call.tag
    rwa [← hbytes] at hslice
  have htagSlice : e.bytes.drop (e.bytes.length - tagLength) = e.call.tag := by
    have hfront : (e.call.aad ++ e.call.ciphertext).length = e.bytes.length - tagLength := by
      rw [List.length_append]
      omega
    rw [← hfront, hbytes, List.drop_left]
  have hframed : parseFramed e.bytes limits =
      .ok ⟨e.encryptedKey, iv.val, e.call.tag, e.call.ciphertext, some e.call.aad⟩ := by
    have hpos := h.wrapped_pos
    have hle := h.wrapped_le
    have hout := h.output
    simp only [parseFramed, hversion, halgorithm, hflags, hkeyLen, hdataLen]
    rw [if_neg (by omega), if_neg (by simp), if_neg (by simp), if_neg (by omega), if_neg (by omega),
      if_neg (by omega)]
    simp only [hiv, hslice, htake, hciphertextSlice, htagSlice]
    rfl
  have hmagic : (decide (e.bytes.length ≥ magic.length) &&
      decide (e.bytes.take magic.length = magic)) = true := by
    rw [Bool.and_eq_true, decide_eq_true_eq, decide_eq_true_eq]
    constructor
    · rw [hlength]
      exact Nat.le_trans (by decide) (Nat.le_add_left tagLength _)
    · rw [hfields, headerFields]
      simp only [List.append_assoc]
      exact List.take_left
  have hinput : ¬ e.bytes.length > pluginInputLimit limits := by
    have hle := pluginOutputLimit_le_pluginInputLimit limits
    have hout := h.output
    omega
  have houtput : ¬ e.call.ciphertext.length > pluginOutputLimit limits := by
    have hout := h.output
    omega
  simp only [parse, hdecrypt, hmagic, hframed]
  rw [if_neg (by omega), if_neg hinput, if_neg (by rw [hlength, tagLength]; omega)]
  simp only [Bool.true_eq_false, false_and, if_false, if_true]
  exact if_neg houtput


/-- Nothing but framed input is read without the legacy option. -/
theorem parse_ok {plugin : KmsEncryptionPlugin} {data : Bytes} {limits : Option EngineLimits}
    {parts : Parts} (h : parse plugin data limits = .ok parts)
    (hlegacy : plugin.allowLegacyDecrypt ≠ some true) : parseFramed data limits = .ok parts := by
  simp only [parse, bind, Except.bind, pure, Except.pure, throw, throwThe,
    MonadExceptOf.throw] at h
  split at h
  · cases h
  split at h
  · cases h
  split at h
  · cases h
  split at h
  · cases h
  split at h
  · cases h
  split at h
  · cases h
  rename_i hgate
  -- without legacy data the magic is there
  have hframed : (decide (data.length ≥ magic.length) &&
      decide (data.take magic.length = magic)) = true := by
    rw [← Bool.not_eq_false]
    exact fun hfalse => hgate ⟨hfalse, hlegacy⟩
  rw [if_pos hframed] at h
  cases hparts : parseFramed data limits with
  | error e =>
    rw [hparts] at h
    cases h
  | ok parts' =>
    rw [hparts] at h
    simp only at h
    split at h
    · cases h
    · cases h
      rfl

theorem openEnvelope_ok {cipher : KmsCipher} {plaintext : Option Bytes} {parts : Parts}
    {result : Bytes} (h : openEnvelope cipher plaintext parts = .ok result) :
    ∃ key, plaintext = some key ∧
      cipher.decrypt () key parts.iv (parts.authenticatedHeader.getD []) parts.ciphertext parts.tag =
        some result := by
  unfold openEnvelope at h
  split at h
  · cases h
  · rename_i key
    split at h
    · cases h
    · split at h
      · rename_i hopen
        cases h
        exact ⟨key, rfl, hopen⟩
      · cases h

/-! ## Exactly what was produced -/

/-- A call of `process`, with the IV it drew. -/
structure Message where
  plugin : KmsEncryptionPlugin
  limits : Option EngineLimits
  data : Bytes
  iv : Iv

namespace Message

def envelope (cipher : KmsCipher) (m : Message) : Except JsError Envelope :=
  processEnvelope cipher m.plugin m.iv m.data m.limits

def encrypt (cipher : KmsCipher) (m : Message) : Except JsError Bytes :=
  process cipher m.plugin m.iv m.data m.limits

theorem encrypt_ok_iff {cipher : KmsCipher} {m : Message} {bytes : Bytes} :
    m.encrypt cipher = .ok bytes ↔ ∃ e, m.envelope cipher = .ok e ∧ e.bytes = bytes := by
  rw [encrypt, process]
  change (m.envelope cipher).map Envelope.bytes = _ ↔ _
  cases m.envelope cipher with
  | error err => simp [Except.map]
  | ok e => simp [Except.map]

end Message

/-- Every call of the cipher that `process` made for the messages. -/
def sealLog (cipher : KmsCipher) (messages : List Message) : Set (SealCall Unit) :=
  { call | ∃ m ∈ messages, ∃ e, m.envelope cipher = .ok e ∧ e.call = call }

/-- The provider of `reader` turns the wrapped key of the message into its data key. -/
def Unwraps (reader : KmsEncryptionPlugin) (m : Message) : Prop :=
  assertKmsOperation reader.kms .decrypt = .ok () ∧
    ∀ keyResult encryptedKey, m.plugin.kms.generateDataKey m.plugin.keyId = .resolves keyResult →
      keyResult.ciphertext = some encryptedKey →
      reader.kms.decrypt encryptedKey reader.keyId = .resolves keyResult.plaintext

/-- What `reverse` accepts, `process` produced. -/
theorem reverse_sound {cipher : KmsCipher} {messages : List Message}
    (hexact : cipher.Exact (sealLog cipher messages)) {reader : KmsEncryptionPlugin}
    {limits : Option EngineLimits} {data plaintext : Bytes}
    (hlegacy : reader.allowLegacyDecrypt ≠ some true)
    (h : reverse cipher reader data limits = .ok plaintext) :
    ∃ m ∈ messages, m.encrypt cipher = .ok data ∧ m.data = plaintext := by
  unfold reverse at h
  cases hparts : parse reader data limits with
  | error e =>
    rw [hparts] at h
    cases h
  | ok parts =>
  rw [hparts] at h
  cases hcall : callProvider reader.kms .decrypt limits
      (reader.kms.decrypt parts.encryptedKey reader.keyId) with
  | error e =>
    simp only [bind, Except.bind, hcall] at h
    cases h
  | ok delivered =>
    simp only [bind, Except.bind, hcall] at h
    obtain ⟨key, -, hopen⟩ := openEnvelope_ok h
    obtain ⟨aad, haad, hdata⟩ := parseFramed_ok (parse_ok hparts hlegacy)
    rw [haad, Option.getD_some] at hopen
    -- the call that opened was sealed for a message, and it determines the bytes
    obtain ⟨m, hm, e, henvelope, hsealed⟩ := (hexact _ _ _ _ _ _ _).mp hopen
    obtain ⟨-, -, keyResult, key', -, hseal⟩ := processEnvelope_ok henvelope
    obtain ⟨hbytes, -⟩ := hseal.bytes_eq
    refine ⟨m, hm, Message.encrypt_ok_iff.mpr ⟨e, henvelope, ?_⟩, ?_⟩
    · rw [hbytes, hsealed]
      exact hdata
    · have hplaintext : e.call.plaintext = m.data := by
        rw [hseal.call]
        rfl
      rw [← hplaintext, hsealed]

/-- What `process` produced, `reverse` restores. -/
theorem reverse_complete {cipher : KmsCipher} {messages : List Message}
    (hexact : cipher.Exact (sealLog cipher messages)) {m : Message} (hm : m ∈ messages)
    {bytes : Bytes} (h : m.encrypt cipher = .ok bytes) {reader : KmsEncryptionPlugin}
    (hkeyId : reader.keyId = m.plugin.keyId) (hunwraps : Unwraps reader m) :
    reverse cipher reader bytes m.limits = .ok m.data := by
  obtain ⟨e, henvelope, rfl⟩ := Message.encrypt_ok_iff.mp h
  obtain ⟨hchecked, htimeout, keyResult, key, hresolves, hseal⟩ := processEnvelope_ok henvelope
  obtain ⟨hdecrypt, hunwrap⟩ := hunwraps
  -- the envelope is parsed back
  have hparse := parse_envelope hseal hdecrypt (by rw [hkeyId]; exact hchecked.keyId)
  -- the provider unwraps the same key
  have hcall : callProvider reader.kms .decrypt m.limits
      (reader.kms.decrypt e.encryptedKey reader.keyId) = .ok (some key) := by
    rw [callProvider_ok_iff, hunwrap keyResult e.encryptedKey hresolves hseal.ciphertext,
      hseal.plaintext]
    exact ⟨hdecrypt, htimeout, rfl⟩
  -- and under it the tag is that of the message
  have hopen : cipher.decrypt () key m.iv.val e.call.aad e.call.ciphertext e.call.tag =
      some m.data := by
    apply (hexact _ _ _ _ _ _ _).mpr
    refine ⟨m, hm, e, henvelope, ?_⟩
    rw [hseal.call]
    rfl
  unfold reverse
  simp only [hparse, bind, Except.bind, hcall, openEnvelope, hseal.key_length, ne_eq,
    not_true_eq_false, if_false, Option.getD_some, hopen]

/-- With an ideal cipher and without the legacy option, `reverse` accepts exactly the
    envelopes of the messages, and restores them. -/
theorem reverse_exact (cipher : KmsCipher) (messages : List Message)
    (hexact : cipher.Exact (sealLog cipher messages)) :
    (∀ (reader : KmsEncryptionPlugin) (limits : Option EngineLimits) (data plaintext : Bytes),
      reader.allowLegacyDecrypt ≠ some true →
      reverse cipher reader data limits = .ok plaintext →
      ∃ m ∈ messages, m.encrypt cipher = .ok data ∧ m.data = plaintext) ∧
    ∀ m ∈ messages, ∀ bytes, m.encrypt cipher = .ok bytes →
      ∀ reader : KmsEncryptionPlugin, reader.keyId = m.plugin.keyId → Unwraps reader m →
        reverse cipher reader bytes m.limits = .ok m.data :=
  ⟨fun _ _ _ _ hlegacy h => reverse_sound hexact hlegacy h,
    fun _ hm _ h _ hkeyId hunwraps => reverse_complete hexact hm h hkeyId hunwraps⟩

/-- A provider with a single key, wrapped as `[9, 9]`. -/
def sampleProvider : KmsProvider where
  declared _ := .undefined
  implemented operation := decide (operation ≠ .encrypt)
  generateDataKey _ := .resolves ⟨some (List.replicate 32 5), some [9, 9]⟩
  decrypt encryptedKey _ :=
    if encryptedKey = [9, 9] then .resolves (some (List.replicate 32 5)) else .rejects .other

def samplePlugin : KmsEncryptionPlugin where
  kms := sampleProvider
  keyId := "sample"
  allowLegacyDecrypt := none
  keyId_nonempty := by decide
  generates := rfl

def sampleMessage : Message := ⟨samplePlugin, none, [1, 2, 3], ⟨List.replicate 12 7, rfl⟩⟩

def sampleEnvelope : Envelope :=
  let header := headerFields 2 3 ⟨List.replicate 12 7, rfl⟩
  ⟨header, [9, 9], (Cipher.checksum Unit tagLength).sealCall () (List.replicate 32 5)
    (List.replicate 12 7) (header ++ [9, 9]) [1, 2, 3]⟩

/-- Another message under the same data key. -/
def otherMessage : Message := ⟨samplePlugin, none, [4, 5], ⟨List.replicate 12 8, rfl⟩⟩

def otherEnvelope : Envelope :=
  let header := headerFields 2 2 ⟨List.replicate 12 8, rfl⟩
  ⟨header, [9, 9], (Cipher.checksum Unit tagLength).sealCall () (List.replicate 32 5)
    (List.replicate 12 8) (header ++ [9, 9]) [4, 5]⟩

/-- Opens what was sealed for the two messages, and nothing else. -/
def replayCipher : KmsCipher :=
  (Cipher.checksum Unit tagLength).replay [otherEnvelope.call, sampleEnvelope.call]

theorem sampleMessage_envelope : sampleMessage.envelope replayCipher = .ok sampleEnvelope := by
  decide +kernel

theorem otherMessage_envelope : otherMessage.envelope replayCipher = .ok otherEnvelope := by
  decide +kernel

theorem replayCipher_exact :
    replayCipher.Exact (sealLog replayCipher [otherMessage, sampleMessage]) := by
  have hlog : sealLog replayCipher [otherMessage, sampleMessage] =
      { call | call ∈ [otherEnvelope.call, sampleEnvelope.call] } := by
    ext call
    constructor
    · rintro ⟨m, hm, e, he, rfl⟩
      rcases List.mem_pair.mp hm with rfl | rfl
      · rw [otherMessage_envelope] at he
        cases he
        exact List.mem_cons_self
      · rw [sampleMessage_envelope] at he
        cases he
        exact List.mem_cons_of_mem _ (List.mem_singleton_self _)
    · intro hcall
      rcases List.mem_pair.mp hcall with rfl | rfl
      · exact ⟨otherMessage, List.mem_cons_self, otherEnvelope, otherMessage_envelope, rfl⟩
      · exact ⟨sampleMessage, List.mem_cons_of_mem _ (List.mem_singleton_self _), sampleEnvelope,
          sampleMessage_envelope, rfl⟩
  rw [hlog]
  exact Cipher.replay_exact _ (by decide)

/-- The envelope of `sampleMessage` is restored. -/
theorem reverse_exact_sample :
    reverse replayCipher samplePlugin sampleEnvelope.bytes none = .ok [1, 2, 3] := by
  have hexact := (reverse_exact replayCipher [otherMessage, sampleMessage] replayCipher_exact).2
  apply hexact sampleMessage (List.mem_cons_of_mem _ (List.mem_singleton_self _))
    sampleEnvelope.bytes (Message.encrypt_ok_iff.mpr ⟨sampleEnvelope, sampleMessage_envelope, rfl⟩) samplePlugin rfl
  refine ⟨rfl, ?_⟩
  intro keyResult encryptedKey hresolves hciphertext
  cases hresolves
  cases hciphertext
  rfl

end PipeX.KmsEncryption
