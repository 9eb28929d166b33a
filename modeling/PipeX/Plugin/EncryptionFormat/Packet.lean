/-
  PipeX.Plugin.EncryptionFormat.Packet

  What `encryptBuffer` puts into a packet: its data frames, cut from the message
  in steps of the frame size, and the empty final frame.

  `DataFrames` has one constructor for each way the `for` loop can go on, so that
  every property of the frames of a packet is an induction over it:
  `sequences`, `plaintexts`, `full`, `bytes_length`.  `encryptPacket_ok` is the one
  lemma about `encryptPacket` that its callers use.
-/
import PipeX.Plugin.EncryptionFormat.Buffer

namespace PipeX.EncryptionFormat

open Chunked Aead BigEndian

/-! ## One sealed frame -/

theorem encryptFrame_ok {crypto : Crypto} {plaintext key globalHeader : Bytes} {type sequence : Nat}
    {algorithm : EncryptionAlgorithm} {frame : SealedFrame}
    (h : encryptFrame crypto plaintext type sequence algorithm key globalHeader = .ok frame) :
    ∃ frameHeader nonce, buildFrameHeader type sequence plaintext.length = .ok frameHeader ∧
      nonceFor sequence = .ok nonce ∧
      frame = ⟨type, sequence, frameHeader,
        crypto.cipher.sealCall algorithm key nonce (globalHeader ++ frameHeader) plaintext⟩ := by
  cases hheader : buildFrameHeader type sequence plaintext.length with
  | error e => simp [encryptFrame, hheader, bind, Except.bind] at h
  | ok frameHeader =>
    cases hnonce : nonceFor sequence with
    | error e => simp [encryptFrame, hheader, hnonce, bind, Except.bind] at h
    | ok nonce =>
      simp only [encryptFrame, hheader, hnonce, bind, Except.bind] at h
      exact ⟨frameHeader, nonce, rfl, rfl, (Except.ok.inj h).symm⟩

/-- The header and the lengths of a sealed frame. -/
theorem encryptFrame_header {crypto : Crypto} {plaintext key globalHeader : Bytes}
    {type sequence : Nat} {algorithm : EncryptionAlgorithm} {frame : SealedFrame}
    (h : encryptFrame crypto plaintext type sequence algorithm key globalHeader = .ok frame) :
    buildFrameHeader type sequence plaintext.length = .ok frame.header ∧
      frame.call.ciphertext.length = plaintext.length ∧ frame.call.tag.length = tagLength := by
  obtain ⟨frameHeader, nonce, hheader, -, rfl⟩ := encryptFrame_ok h
  exact ⟨hheader, crypto.cipher.ciphertext_length _ _ _ _ _, crypto.cipher.tag_length _ _ _ _ _⟩

theorem encryptFrame_fields {crypto : Crypto} {plaintext key globalHeader : Bytes}
    {type sequence : Nat} {algorithm : EncryptionAlgorithm} {frame : SealedFrame}
    (h : encryptFrame crypto plaintext type sequence algorithm key globalHeader = .ok frame) :
    frame.type = type ∧ frame.sequence = sequence ∧ frame.call.plaintext = plaintext := by
  obtain ⟨_, _, -, -, rfl⟩ := encryptFrame_ok h
  exact ⟨rfl, rfl, rfl⟩

/-- A frame is its plaintext and the fixed overhead. -/
theorem encryptFrame_bytes_length {crypto : Crypto} {plaintext key globalHeader : Bytes}
    {type sequence : Nat} {algorithm : EncryptionAlgorithm} {frame : SealedFrame}
    (h : encryptFrame crypto plaintext type sequence algorithm key globalHeader = .ok frame) :
    frame.bytes.length = plaintext.length + frameOverhead := by
  obtain ⟨hheader, hct, htag⟩ := encryptFrame_header h
  obtain ⟨hlen, -⟩ := buildFrameHeader_ok hheader
  simp only [SealedFrame.bytes, List.length_append, hlen, hct, htag, frameOverhead]
  omega

/-! ## The data frames of a message -/

section DataFrames

variable (crypto : Crypto) (algorithm : EncryptionAlgorithm) (frameSizeBytes : FrameSize)
  (derivedKey header : Bytes)

/-- The frames that the `for` loop seals, from `sequence` on, for the rest `data`
    of the message. -/
inductive DataFrames : Nat → Bytes → List SealedFrame → Prop where
  | nil (sequence : Nat) : DataFrames sequence [] []
  | cons {sequence : Nat} {data : Bytes} {frame : SealedFrame} {frames : List SealedFrame}
      (nonempty : data ≠ [])
      (first : encryptFrame crypto (data.take frameSizeBytes.val) dataFrame sequence algorithm
        derivedKey header = .ok frame)
      (others : DataFrames (sequence + 1) (data.drop frameSizeBytes.val) frames) :
      DataFrames sequence data (frame :: frames)

variable {crypto algorithm frameSizeBytes derivedKey header}

theorem encryptPass_ok {sequence : Nat} {rest : Bytes} {frame : SealedFrame}
    (h : encryptFrame crypto (rest.take frameSizeBytes.val) dataFrame sequence algorithm derivedKey
      header = .ok frame) :
    encryptPass crypto algorithm frameSizeBytes derivedKey header sequence rest =
      ⟨[frame], .ok (.done (sequence + 1) (rest.drop frameSizeBytes.val))⟩ := by
  simp only [encryptPass, h, Emit.liftM_eq, Emit.ofExcept_ok, pure_bind]
  rfl

/-- A loop that returned has pushed the data frames and counted them. -/
theorem encryptLoop_ok {sequence : Nat} {data : Bytes} {sequence' : Nat}
    (h : ((encryptLoop crypto algorithm frameSizeBytes derivedKey header).run sequence data).result
      = .ok sequence') :
    DataFrames crypto algorithm frameSizeBytes derivedKey header sequence data
        ((encryptLoop crypto algorithm frameSizeBytes derivedKey header).run sequence data).out ∧
      sequence' = sequence +
        ((encryptLoop crypto algorithm frameSizeBytes derivedKey header).run sequence
          data).out.length := by
  induction sequence, data using
    (encryptLoop crypto algorithm frameSizeBytes derivedKey header).induct with
  | nil sequence =>
    cases h
    exact ⟨.nil _, rfl⟩
  | pass sequence data hne ih =>
    rw [InputLoop.run_of_ne_nil _ sequence hne] at h ⊢
    cases hframe : encryptFrame crypto (data.take frameSizeBytes.val) dataFrame sequence algorithm
        derivedKey header with
    | error e => simp [encryptLoop, encryptPass, hframe] at h
    | ok frame =>
      -- a pass seals one frame and counts on
      have hbody : (encryptLoop crypto algorithm frameSizeBytes derivedKey header).body sequence
          data = ⟨[frame], .ok (.done (sequence + 1) (data.drop frameSizeBytes.val))⟩ :=
        encryptPass_ok hframe
      rw [hbody, Emit.bind_ok rfl, InputLoop.next_done] at h ⊢
      obtain ⟨hframes, hcount⟩ := ih (sequence + 1) (data.drop frameSizeBytes.val)
        (by rw [hbody]) h
      refine ⟨.cons hne hframe hframes, ?_⟩
      rw [hcount, List.singleton_append, List.length_cons]
      omega

namespace DataFrames

variable {sequence : Nat} {data : Bytes} {frames : List SealedFrame}

/-- As many frames as the encoder announces. -/
theorem length_eq
    (h : DataFrames crypto algorithm frameSizeBytes derivedKey header sequence data frames) :
    frames.length = dataFrameCount data.length frameSizeBytes.val := by
  induction h with
  | nil => rfl
  | @cons sequence data frame frames nonempty first others ih =>
    have hpos := List.length_pos_iff.mpr nonempty
    rw [List.length_drop] at ih
    rw [List.length_cons, ih]
    by_cases hle : data.length ≤ frameSizeBytes.val
    · rw [Nat.sub_eq_zero_of_le hle, dataFrameCount_zero, dataFrameCount_of_le hpos hle]
    · rw [← dataFrameCount_add frameSizeBytes.property.1, Nat.add_sub_cancel' (by omega)]

/-- The sequence numbers run up from the first. -/
theorem sequences
    (h : DataFrames crypto algorithm frameSizeBytes derivedKey header sequence data frames) :
    frames.map (·.sequence) = List.range' sequence frames.length := by
  induction h with
  | nil => rfl
  | cons nonempty first others ih =>
    obtain ⟨_, _, -, -, rfl⟩ := encryptFrame_ok first
    rw [List.map_cons, ih, List.length_cons, List.range'_succ]

/-- The frames hold the message. -/
theorem plaintexts
    (h : DataFrames crypto algorithm frameSizeBytes derivedKey header sequence data frames) :
    (frames.map (·.call.plaintext)).flatten = data := by
  induction h with
  | nil => rfl
  | cons nonempty first others ih =>
    obtain ⟨_, _, -, -, rfl⟩ := encryptFrame_ok first
    rw [List.map_cons, List.flatten_cons, ih]
    exact List.take_append_drop _ _

/-- The first `n` frames hold a prefix of the message, in steps of the frame size. -/
theorem take_plaintexts
    (h : DataFrames crypto algorithm frameSizeBytes derivedKey header sequence data frames)
    (n : Nat) :
    ((frames.map (·.call.plaintext)).take n).flatten = data.take (n * frameSizeBytes.val) := by
  induction h generalizing n with
  | nil => simp
  | @cons sequence data frame frames nonempty first others ih =>
    obtain ⟨_, _, -, -, rfl⟩ := encryptFrame_ok first
    cases n with
    | zero => simp
    | succ n =>
      rw [List.map_cons, List.take_succ_cons, List.flatten_cons, ih, Nat.succ_mul, Nat.add_comm,
        List.take_add]
      rfl

/-- Every frame is the output of `encryptFrame` for its own plaintext. -/
theorem sealed
    (h : DataFrames crypto algorithm frameSizeBytes derivedKey header sequence data frames)
    {frame : SealedFrame} (hmem : frame ∈ frames) :
    encryptFrame crypto frame.call.plaintext dataFrame frame.sequence algorithm derivedKey header
      = .ok frame := by
  induction h with
  | nil => cases hmem
  | cons nonempty first others ih =>
    rcases List.mem_cons.mp hmem with rfl | hmem
    · obtain ⟨_, _, -, -, heq⟩ := encryptFrame_ok first
      have hplain := congrArg (·.call.plaintext) heq
      have hseq := congrArg (·.sequence) heq
      simp only [Cipher.sealCall] at hplain hseq
      rw [hplain, hseq]
      exact first
    · exact ih hmem

/-- Every data frame but the last is full. -/
theorem full
    (h : DataFrames crypto algorithm frameSizeBytes derivedKey header sequence data frames)
    {frame : SealedFrame} (hmem : frame ∈ frames.dropLast) :
    frame.call.plaintext.length = frameSizeBytes.val := by
  induction h with
  | nil => cases hmem
  | @cons sequence data frame' frames nonempty first others ih =>
    cases frames with
    | nil => cases hmem
    | cons second frames =>
      rcases List.mem_cons.mp hmem with rfl | hmem
      · -- a second frame follows, so more than one frame size was left
        obtain ⟨_, _, -, -, rfl⟩ := encryptFrame_ok first
        have hcount := others.length_eq
        have hmore : data.length - frameSizeBytes.val ≠ 0 := by
          intro hzero
          rw [List.length_drop, hzero, dataFrameCount_zero] at hcount
          cases hcount
        simp only [Cipher.sealCall, List.length_take]
        omega
      · exact ih hmem

theorem bytes_length
    (h : DataFrames crypto algorithm frameSizeBytes derivedKey header sequence data frames) :
    (frames.map SealedFrame.bytes).flatten.length = data.length + frames.length * frameOverhead := by
  induction h with
  | nil => rfl
  | @cons sequence data frame frames nonempty first others ih =>
    rw [List.map_cons, List.flatten_cons, List.length_append, ih, encryptFrame_bytes_length first,
      List.length_take, List.length_drop, List.length_cons]
    have := frameSizeBytes.property.1
    rw [Nat.add_mul]
    omega

end DataFrames
end DataFrames

/-! ## The packet -/

/-- The checks on the total that buffer and stream encryption share. -/
structure Fits (limits : FormatLimits) (frameSizeBytes : FrameSize) (n : Nat) : Prop where
  input : n ≤ limits.maxInputBytes
  frames : dataFrameCount n frameSizeBytes.val ≤ limits.maxFrames
  output : encodedLength n frameSizeBytes.val ≤ limits.maxOutputBytes

/-- What fits in total has fitted all along. -/
theorem Fits.mono {limits : FormatLimits} {frameSizeBytes : FrameSize} {m n : Nat} (h : m ≤ n)
    (hn : Fits limits frameSizeBytes n) : Fits limits frameSizeBytes m where
  input := Nat.le_trans h hn.input
  frames := Nat.le_trans (dataFrameCount_mono _ h) hn.frames
  output := Nat.le_trans (encodedLength_mono _ h) hn.output

/-- The checks on a total that fits. -/
theorem startPacket_of_fits (crypto : Crypto) (salt : Salt) {data : Bytes}
    {options : EncryptionFormatOptions} {contextLimits : Option EngineLimits}
    {frameSizeBytes : FrameSize} (hkey : assertEncryptionKey options.key = .ok ())
    (hsize : resolveFrameSize options (limitsFor contextLimits) = .ok frameSizeBytes)
    (hfits : Fits (limitsFor contextLimits) frameSizeBytes data.length) :
    startPacket crypto salt data options contextLimits =
      .ok ⟨frameSizeBytes, encodedLength data.length frameSizeBytes.val,
        buildHeader options.algorithm frameSizeBytes salt,
        deriveKey crypto options.key (packetHeader options.algorithm frameSizeBytes salt)⟩ := by
  have hparse := parseHeader_buildHeader options.algorithm frameSizeBytes salt
    (resolveFrameSize_le hsize)
  simp only [startPacket, hkey, hsize, hparse, bind, Except.bind, pure, Except.pure,
    if_neg (Nat.not_lt_of_le hfits.input), if_neg (Nat.not_lt_of_le hfits.frames),
    if_neg (Nat.not_lt_of_le hfits.output)]

/-- Every total that gets through them fits. -/
theorem startPacket_checks {crypto : Crypto} {salt : Salt} {data : Bytes}
    {options : EncryptionFormatOptions} {contextLimits : Option EngineLimits} {start : PacketStart}
    (h : startPacket crypto salt data options contextLimits = .ok start) :
    assertEncryptionKey options.key = .ok () ∧
      ∃ frameSizeBytes, resolveFrameSize options (limitsFor contextLimits) = .ok frameSizeBytes ∧
        Fits (limitsFor contextLimits) frameSizeBytes data.length := by
  simp only [startPacket, bind, Except.bind, pure, Except.pure, throw, throwThe,
    MonadExceptOf.throw] at h
  -- in the order of the code
  split at h
  · cases h
  rename_i hkey
  split at h
  · cases h
  rename_i hinput
  split at h
  · cases h
  rename_i frameSizeBytes hsize
  split at h
  · cases h
  rename_i hframes
  split at h
  · cases h
  rename_i houtput
  exact ⟨hkey, frameSizeBytes, hsize, Nat.le_of_not_lt hinput, Nat.le_of_not_lt hframes,
    Nat.le_of_not_lt houtput⟩

/-- `encryptPacket` on a total that fits: what its frames come to. -/
theorem encryptPacket_of_fits (crypto : Crypto) (salt : Salt) {data : Bytes}
    {options : EncryptionFormatOptions} {contextLimits : Option EngineLimits}
    {frameSizeBytes : FrameSize} (hkey : assertEncryptionKey options.key = .ok ())
    (hsize : resolveFrameSize options (limitsFor contextLimits) = .ok frameSizeBytes)
    (hfits : Fits (limitsFor contextLimits) frameSizeBytes data.length) :
    encryptPacket crypto salt data options contextLimits =
      (encryptFrames crypto options.algorithm frameSizeBytes
        (deriveKey crypto options.key (packetHeader options.algorithm frameSizeBytes salt))
        (buildHeader options.algorithm frameSizeBytes salt) data).result.map fun _ =>
          ⟨buildHeader options.algorithm frameSizeBytes salt,
            (encryptFrames crypto options.algorithm frameSizeBytes
              (deriveKey crypto options.key (packetHeader options.algorithm frameSizeBytes salt))
              (buildHeader options.algorithm frameSizeBytes salt) data).out,
            encodedLength data.length frameSizeBytes.val⟩ := by
  rw [encryptPacket, startPacket_of_fits crypto salt hkey hsize hfits]
  rfl

/-- A packet that was built passed every check. -/
theorem encryptPacket_checks {crypto : Crypto} {salt : Salt} {data : Bytes}
    {options : EncryptionFormatOptions} {contextLimits : Option EngineLimits} {packet : Packet}
    (h : encryptPacket crypto salt data options contextLimits = .ok packet) :
    assertEncryptionKey options.key = .ok () ∧
      ∃ frameSizeBytes, resolveFrameSize options (limitsFor contextLimits) = .ok frameSizeBytes ∧
        Fits (limitsFor contextLimits) frameSizeBytes data.length := by
  cases hstart : startPacket crypto salt data options contextLimits with
  | error e =>
    rw [encryptPacket, hstart] at h
    cases h
  | ok start => exact startPacket_checks hstart

/-- Everything about a packet: its data frames, its final frame and its length. -/
theorem encryptPacket_ok {crypto : Crypto} {salt : Salt} {data : Bytes}
    {options : EncryptionFormatOptions} {contextLimits : Option EngineLimits} {packet : Packet}
    (h : encryptPacket crypto salt data options contextLimits = .ok packet) :
    assertEncryptionKey options.key = .ok () ∧
    ∃ frameSizeBytes, resolveFrameSize options (limitsFor contextLimits) = .ok frameSizeBytes ∧
      Fits (limitsFor contextLimits) frameSizeBytes data.length ∧
      packet.header = buildHeader options.algorithm frameSizeBytes salt ∧
      packet.outputLength = encodedLength data.length frameSizeBytes.val ∧
      ∃ frames final, packet.frames = frames ++ [final] ∧
        DataFrames crypto options.algorithm frameSizeBytes
          (deriveKey crypto options.key (packetHeader options.algorithm frameSizeBytes salt))
          packet.header 0 data frames ∧
        encryptFrame crypto [] finalFrame frames.length options.algorithm
          (deriveKey crypto options.key (packetHeader options.algorithm frameSizeBytes salt))
          packet.header = .ok final := by
  obtain ⟨hkey, frameSizeBytes, hsize, hfits⟩ := encryptPacket_checks h
  rw [encryptPacket_of_fits crypto salt hkey hsize hfits] at h
  generalize hdk : deriveKey crypto options.key
    (packetHeader options.algorithm frameSizeBytes salt) = derivedKey at h
  generalize hhd : buildHeader options.algorithm frameSizeBytes salt = header at h
  refine ⟨hkey, frameSizeBytes, hsize, hfits, ?_⟩
  -- what is left is the loop over the data and the final frame behind it
  cases hframes : (encryptFrames crypto options.algorithm frameSizeBytes derivedKey header
      data).result with
  | error e => rw [hframes] at h; cases h
  | ok _ =>
    rw [hframes] at h
    cases h
    obtain ⟨sequence, hloop, hfinal, hout⟩ := Emit.bind_eq_ok hframes
    obtain ⟨final, hfinal, -, hout'⟩ := Emit.bind_eq_ok hfinal
    obtain ⟨hdata, hcount⟩ := encryptLoop_ok hloop
    rw [Nat.zero_add] at hcount
    subst hcount hhd hdk
    refine ⟨rfl, rfl, _, final, ?_, hdata, hfinal⟩
    change (encryptFrames crypto options.algorithm frameSizeBytes _ _ data).out = _
    rw [encryptFrames, hout, hout']
    rfl

/-- The packet on the wire. -/
def Packet.bytes (packet : Packet) : Bytes :=
  packet.header ++ (packet.frames.map SealedFrame.bytes).flatten

/-- The encoded length that the encoder computes beforehand is exact. -/
theorem encryptPacket_length {crypto : Crypto} {salt : Salt} {data : Bytes}
    {options : EncryptionFormatOptions} {contextLimits : Option EngineLimits} {packet : Packet}
    (h : encryptPacket crypto salt data options contextLimits = .ok packet) :
    packet.bytes.length = packet.outputLength := by
  obtain ⟨-, frameSizeBytes, -, -, hheader, hlength, frames, final, hframes, hdata, hfinal⟩ :=
    encryptPacket_ok h
  have hfinal := encryptFrame_bytes_length hfinal
  rw [hlength, Packet.bytes, hframes, hheader, encodedLength_eq, ← hdata.length_eq,
    List.length_append, buildHeader_length, List.map_append, List.flatten_append,
    List.length_append, hdata.bytes_length, List.map_singleton, List.flatten_singleton, hfinal,
    List.length_nil, Nat.add_mul]
  omega

/-- `Buffer.concat` neither cuts off nor pads. -/
theorem encryptBuffer_eq {crypto : Crypto} {salt : Salt} {data : Bytes}
    {options : EncryptionFormatOptions} {contextLimits : Option EngineLimits} :
    encryptBuffer crypto salt data options contextLimits =
      (encryptPacket crypto salt data options contextLimits).map Packet.bytes := by
  cases h : encryptPacket crypto salt data options contextLimits with
  | error e => simp [encryptBuffer, h, bind, Except.bind, Except.map]
  | ok packet =>
    have hexact : (packet.header :: packet.frames.map SealedFrame.bytes).flatten.length =
        packet.outputLength := encryptPacket_length h
    simp only [encryptBuffer, h, bind, Except.bind, pure, Except.pure, Except.map,
      bufferConcat_eq_flatten hexact]
    rfl

theorem encryptBuffer_ok {crypto : Crypto} {salt : Salt} {data encrypted : Bytes}
    {options : EncryptionFormatOptions} {contextLimits : Option EngineLimits}
    (h : encryptBuffer crypto salt data options contextLimits = .ok encrypted) :
    ∃ packet, encryptPacket crypto salt data options contextLimits = .ok packet ∧
      encrypted = packet.bytes := by
  rw [encryptBuffer_eq] at h
  cases hpacket : encryptPacket crypto salt data options contextLimits with
  | error e => rw [hpacket] at h; cases h
  | ok packet =>
    rw [hpacket] at h
    exact ⟨packet, rfl, (Except.ok.inj h).symm⟩

/-! ## Sequence numbers and nonces -/

/-- The frames of one packet, the final frame last. -/
structure PacketFrames (crypto : Crypto) (algorithm : EncryptionAlgorithm)
    (frameSizeBytes : FrameSize) (derivedKey header : Bytes) (frames : List SealedFrame) : Prop where
  sealed : ∀ frame ∈ frames, encryptFrame crypto frame.call.plaintext frame.type frame.sequence
    algorithm derivedKey header = .ok frame
  sequences : frames.map (·.sequence) = List.range frames.length
  nonces : (frames.map (·.call.nonce)).Nodup
  data : ∀ frame ∈ frames.dropLast, frame.type = dataFrame
  final : frames.getLast?.map (·.type) = some finalFrame
  full : ∀ frame ∈ frames.dropLast.dropLast, frame.call.plaintext.length = frameSizeBytes.val

/-- Frames with different sequence numbers have different nonces. -/
theorem nonces_nodup {crypto : Crypto} {algorithm : EncryptionAlgorithm} {derivedKey header : Bytes}
    {frames : List SealedFrame}
    (hsealed : ∀ frame ∈ frames, encryptFrame crypto frame.call.plaintext frame.type frame.sequence
      algorithm derivedKey header = .ok frame)
    (hseq : (frames.map (·.sequence)).Nodup) : (frames.map (·.call.nonce)).Nodup := by
  rw [List.Nodup, List.pairwise_map] at hseq ⊢
  refine hseq.imp_of_mem fun {f g} hf hg hne hnonce => hne ?_
  obtain ⟨_, nonce, -, hn, heq⟩ := encryptFrame_ok (hsealed f hf)
  obtain ⟨_, nonce', -, hn', heq'⟩ := encryptFrame_ok (hsealed g hg)
  have hf' : f.call.nonce = nonce := congrArg (·.call.nonce) heq
  have hg' : g.call.nonce = nonce' := congrArg (·.call.nonce) heq'
  rw [hf', hg'] at hnonce
  subst hnonce
  exact nonceFor_inj hn hn'

/-- A frame stands at the place of its sequence number. -/
theorem PacketFrames.getElem?_sequence {crypto : Crypto} {algorithm : EncryptionAlgorithm}
    {frameSizeBytes : FrameSize} {derivedKey header : Bytes} {frames : List SealedFrame}
    (h : PacketFrames crypto algorithm frameSizeBytes derivedKey header frames)
    {frame : SealedFrame} (hmem : frame ∈ frames) : frames[frame.sequence]? = some frame := by
  obtain ⟨i, hi, hget⟩ := List.getElem_of_mem hmem
  have hi' : i < (frames.map (·.sequence)).length := by rwa [List.length_map]
  have hseq : (frames.map (·.sequence))[i] = i := by
    simp only [h.sequences, List.getElem_range]
  rw [List.getElem_map, hget] at hseq
  rw [hseq, ← hget]
  exact List.getElem?_eq_getElem hi

/-- The final frame is the last one, and its header says so. -/
theorem PacketFrames.final_iff {crypto : Crypto} {algorithm : EncryptionAlgorithm}
    {frameSizeBytes : FrameSize} {derivedKey header : Bytes} {frames : List SealedFrame}
    (h : PacketFrames crypto algorithm frameSizeBytes derivedKey header frames)
    {i : Nat} {frame : SealedFrame} (hget : frames[i]? = some frame) :
    readFrameType frame.header = finalFrame ↔ i + 1 = frames.length := by
  obtain ⟨hlt, hget⟩ := List.getElem?_eq_some_iff.mp hget
  have hmem : frame ∈ frames := hget ▸ List.getElem_mem hlt
  obtain ⟨hheader, -⟩ := encryptFrame_header (h.sealed frame hmem)
  obtain ⟨-, htype, -⟩ := buildFrameHeader_ok hheader
  rw [htype]
  constructor
  · intro hfinal
    by_contra hne
    -- a frame in front of the last one is a data frame
    have hdata : frame.type = dataFrame := by
      refine h.data frame (List.mem_iff_getElem.mpr ⟨i, ?_, ?_⟩)
      · rw [List.length_dropLast]
        omega
      · rw [List.getElem_dropLast, hget]
    rw [hdata] at hfinal
    cases hfinal
  · intro hlast
    have hfinal := h.final
    rw [List.getLast?_eq_getElem?, show frames.length - 1 = i from by omega,
      List.getElem?_eq_getElem hlt, hget] at hfinal
    exact Option.some.inj hfinal

theorem encryptPacket_frames {crypto : Crypto} {salt : Salt} {data : Bytes}
    {options : EncryptionFormatOptions} {contextLimits : Option EngineLimits} {packet : Packet}
    (h : encryptPacket crypto salt data options contextLimits = .ok packet) :
    ∃ frameSizeBytes, resolveFrameSize options (limitsFor contextLimits) = .ok frameSizeBytes ∧
      PacketFrames crypto options.algorithm frameSizeBytes
        (deriveKey crypto options.key (packetHeader options.algorithm frameSizeBytes salt))
        packet.header packet.frames := by
  obtain ⟨-, frameSizeBytes, hsize, -, -, -, frames, final, hframes, hdata, hfinal⟩ :=
    encryptPacket_ok h
  refine ⟨frameSizeBytes, hsize, ?_⟩
  generalize deriveKey crypto options.key (packetHeader options.algorithm frameSizeBytes salt) =
    derivedKey at hdata hfinal ⊢
  have hsealed : ∀ frame ∈ packet.frames, encryptFrame crypto frame.call.plaintext frame.type
      frame.sequence options.algorithm derivedKey packet.header = .ok frame := by
    rw [hframes]
    intro frame hmem
    rcases List.mem_append.mp hmem with hmem | hmem
    · have hok := hdata.sealed hmem
      rw [(encryptFrame_fields hok).1]
      exact hok
    · rw [List.mem_singleton.mp hmem]
      obtain ⟨htype, hsequence, hplain⟩ := encryptFrame_fields hfinal
      rw [htype, hsequence, hplain]
      exact hfinal
  obtain ⟨htype, hlast, -⟩ := encryptFrame_fields hfinal
  -- the data frames are counted from 0, and the final frame goes on from there
  have hseq : packet.frames.map (·.sequence) = List.range packet.frames.length := by
    rw [hframes, List.map_append, hdata.sequences, List.length_append, List.map_singleton, hlast,
      List.length_singleton, List.range_succ, List.range_eq_range']
  refine ⟨hsealed, hseq, nonces_nodup hsealed (hseq ▸ List.nodup_range), ?_, ?_, ?_⟩
  · rw [hframes, List.dropLast_concat]
    intro frame hmem
    exact (encryptFrame_fields (hdata.sealed hmem)).1
  · rw [hframes, List.getLast?_concat, Option.map_some, htype]
  · rw [hframes, List.dropLast_concat]
    exact fun frame hmem => hdata.full hmem

end PipeX.EncryptionFormat
