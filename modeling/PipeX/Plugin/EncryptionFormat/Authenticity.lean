/-
  PipeX.Plugin.EncryptionFormat.Authenticity

  Whole-message authenticity of the PXAE format, with an ideal cipher: only what
  the encoder sealed opens.

  The messages have pairwise distinct salts, so a global header belongs to at
  most one of them.  Every frame is sealed with the global header and its own
  header as associated data, which ties a frame that opens to one message and one
  place in it (`open_honest`); the rest is the invariant of the loop
  (`framedLoop_released`).

  * `decryptStream_releases_front` — the stream, stopped anywhere, has released
    whole frames of that message, and ends well only behind the whole packet.
  * `decryptBuffer_authentic` — the buffer path accepts only whole packets.

  Neither theorem needs the derived keys to differ: the salt is in the header.
-/
import Mathlib.Data.List.Nodup
import PipeX.Plugin.EncryptionFormat.StreamRelease

namespace PipeX.EncryptionFormat

open Chunked Aead

/-! ## Honest messages -/

/-- One call of `encryptBuffer`, with the salt it drew. -/
structure Message where
  salt : Salt
  data : Bytes
  options : EncryptionFormatOptions
  contextLimits : Option EngineLimits

namespace Message

def packet (crypto : Crypto) (m : Message) : Except JsError Packet :=
  encryptPacket crypto m.salt m.data m.options m.contextLimits

def encrypt (crypto : Crypto) (m : Message) : Except JsError Bytes :=
  encryptBuffer crypto m.salt m.data m.options m.contextLimits

theorem encrypt_of_packet {crypto : Crypto} {m : Message} {packet : Packet}
    (h : m.packet crypto = .ok packet) : m.encrypt crypto = .ok packet.bytes := by
  rw [encrypt, encryptBuffer_eq]
  exact congrArg (Except.map Packet.bytes) h

/-- The data frames of a packet hold its message, in steps of the frame size. -/
theorem pieces_packet {crypto : Crypto} {m : Message} {packet : Packet}
    (h : m.packet crypto = .ok packet) :
    ∃ frameSizeBytes, resolveFrameSize m.options (limitsFor m.contextLimits) = .ok frameSizeBytes ∧
      (pieces packet.frames).flatten = m.data ∧
      ∀ n, ((pieces packet.frames).take n).flatten = m.data.take (n * frameSizeBytes.val) := by
  obtain ⟨-, frameSizeBytes, hsize, -, -, -, frames, final, hframes, hdata, -⟩ := encryptPacket_ok h
  refine ⟨frameSizeBytes, hsize, ?_, fun n => ?_⟩
  · rw [pieces, hframes, List.dropLast_concat, hdata.plaintexts]
  · rw [pieces, hframes, List.dropLast_concat, hdata.take_plaintexts]

theorem packet_header_length {crypto : Crypto} {m : Message} {packet : Packet}
    (h : m.packet crypto = .ok packet) : packet.header.length = globalHeaderLength := by
  obtain ⟨-, frameSizeBytes, -, -, hheader, -⟩ := encryptPacket_ok h
  rw [hheader, buildHeader_length]

/-- The salt stands at the end of the header. -/
theorem salt_eq_of_header {crypto : Crypto} {m m' : Message} {packet packet' : Packet}
    (h : m.packet crypto = .ok packet) (h' : m'.packet crypto = .ok packet')
    (heq : packet.header = packet'.header) : m.salt = m'.salt := by
  obtain ⟨-, _, -, -, hheader, -⟩ := encryptPacket_ok h
  obtain ⟨-, _, -, -, hheader', -⟩ := encryptPacket_ok h'
  rw [hheader, hheader', buildHeader, buildHeader] at heq
  exact Subtype.ext (List.append_inj_right' heq (by rw [m.salt.property, m'.salt.property]))

end Message

/-- Every call of the cipher that the encoder made for the messages. -/
def sealLog (crypto : Crypto) (messages : List Message) : Set (SealCall EncryptionAlgorithm) :=
  { call | ∃ m ∈ messages, ∃ packet, m.packet crypto = .ok packet ∧
    ∃ frame ∈ packet.frames, frame.call = call }

section Honest

variable {crypto : Crypto} {messages : List Message}

/-- A header belongs to one message. -/
theorem message_unique (hsalts : (messages.map (·.salt)).Nodup) {m m' : Message}
    (hm : m ∈ messages) (hm' : m' ∈ messages) {packet packet' : Packet}
    (h : m.packet crypto = .ok packet) (h' : m'.packet crypto = .ok packet')
    (heq : packet.header = packet'.header) : m = m' :=
  List.inj_on_of_nodup_map hsalts hm hm' (Message.salt_eq_of_header h h' heq)

/-- What opens under a received header is a frame of the message with that header,
    in its own place. -/
theorem open_honest (hideal : crypto.cipher.Ideal (sealLog crypto messages))
    {parsedHeader : ParsedHeader} (hlen : parsedHeader.bytes.length = globalHeaderLength)
    {derivedKey ciphertext tag frameHeader restored : Bytes} {sequence : Nat}
    (h : decryptFrame crypto ciphertext tag frameHeader sequence parsedHeader.algorithm derivedKey
      parsedHeader.bytes = .ok restored) :
    ∃ m ∈ messages, ∃ packet, m.packet crypto = .ok packet ∧
      packet.header = parsedHeader.bytes ∧
      ∃ frame, packet.frames[sequence]? = some frame ∧
        frame.bytes = frameHeader ++ ciphertext ++ tag ∧ frame.header = frameHeader ∧
        frame.call.plaintext = restored := by
  obtain ⟨-, nonce, hnonce, hopen⟩ := decryptFrame_ok_iff.mp h
  obtain ⟨m, hm, packet, hpacket, frame, hmem, hcall⟩ := hideal _ _ _ _ _ _ _ hopen
  obtain ⟨frameSizeBytes, -, hframes⟩ := encryptPacket_frames hpacket
  obtain ⟨frameHeader', nonce', -, hnonce', hframe⟩ := encryptFrame_ok (hframes.sealed frame hmem)
  have hheader' : frame.header = frameHeader' := congrArg (·.header) hframe
  -- the call behind the frame is the one that was opened
  have hsame := (congrArg (·.call) hframe).symm.trans hcall
  simp only [Cipher.sealCall, SealCall.mk.injEq] at hsame
  obtain ⟨-, -, hn, haad, -⟩ := hsame
  obtain ⟨hheader, hframeHeader⟩ := List.append_inj haad
    (by rw [Message.packet_header_length hpacket, hlen])
  have hsequence : frame.sequence = sequence := nonceFor_inj hnonce' (hn ▸ hnonce)
  refine ⟨m, hm, packet, hpacket, hheader, frame, hsequence ▸ hframes.getElem?_sequence hmem, ?_,
    hheader'.trans hframeHeader, congrArg (·.plaintext) hcall⟩
  rw [SealedFrame.bytes, hheader', hframeHeader, hcall]

/-- Under a received header only the frames of its message open, or none. -/
theorem onlyOpens_honest (hideal : crypto.cipher.Ideal (sealLog crypto messages))
    (hsalts : (messages.map (·.salt)).Nodup) {parsedHeader : ParsedHeader}
    (hlen : parsedHeader.bytes.length = globalHeaderLength) (derivedKey : Bytes) :
    (∃ m ∈ messages, ∃ packet, m.packet crypto = .ok packet ∧
      packet.header = parsedHeader.bytes ∧
      OnlyOpens crypto parsedHeader derivedKey packet.frames) ∨
    OnlyOpens crypto parsedHeader derivedKey [] := by
  by_cases hknown : ∃ m ∈ messages, ∃ packet, m.packet crypto = .ok packet ∧
      packet.header = parsedHeader.bytes
  · obtain ⟨m, hm, packet, hpacket, hheader⟩ := hknown
    obtain ⟨_, -, hframes⟩ := encryptPacket_frames hpacket
    refine .inl ⟨m, hm, packet, hpacket, hheader, fun h => ?_, hframes.final_iff⟩
    -- the frame is one of a message with this header, and the header is that of one message
    obtain ⟨m', hm', packet', hpacket', hheader', hframe⟩ := open_honest hideal hlen h
    have heq : m = m' := message_unique hsalts hm hm' hpacket hpacket' (hheader.trans hheader'.symm)
    subst heq
    rw [hpacket] at hpacket'
    cases hpacket'
    exact hframe
  · refine .inr ⟨fun h => ?_, fun h => by cases h⟩
    obtain ⟨m, hm, packet, hpacket, hheader, -⟩ := open_honest hideal hlen h
    exact absurd ⟨m, hm, packet, hpacket, hheader⟩ hknown

/-! ## The stream -/

/-- `released` is a prefix of the message whose header was received, and ends with
    one of its data frames. -/
def ReleasedFrom (crypto : Crypto) (messages : List Message) (received released : Bytes) : Prop :=
  ∃ m ∈ messages, ∃ packet frameSizeBytes, m.packet crypto = .ok packet ∧
    resolveFrameSize m.options (limitsFor m.contextLimits) = .ok frameSizeBytes ∧
    packet.header <+: received ∧
    (∀ m' ∈ messages, ∀ packet', m'.packet crypto = .ok packet' → packet'.header <+: received →
      m' = m) ∧
    ∃ n, released = m.data.take (n * frameSizeBytes.val)

/-- The loop over any received bytes releases pieces of one message, and ends well
    only behind the whole packet. -/
theorem run_start_honest (hideal : crypto.cipher.Ideal (sealLog crypto messages))
    (hsalts : (messages.map (·.salt)).Nodup) (stream : DecryptionStream) (received : Bytes) :
    let run := (stream.framedLoop crypto).run FramedState.start received
    (run.out = [] ∧ ∀ s, run.result = .ok s → DecryptionStream.atEnd s ≠ .ok ()) ∨
    ∃ m ∈ messages, ∃ packet, m.packet crypto = .ok packet ∧ packet.header <+: received ∧
      run.out <+: pieces packet.frames ∧
      ∀ s, run.result = .ok s → DecryptionStream.atEnd s = .ok () →
        received = packet.bytes ∧ run.out = pieces packet.frames := by
  intro run
  rcases stream.run_start_cases crypto received with hnone |
    ⟨header, rest, parsedHeader, hreceived, hlen, hparse, hrun⟩
  · exact .inl hnone
  · obtain ⟨hbytes, -⟩ := parseHeader_ok hparse
    have hlen' : parsedHeader.bytes.length = globalHeaderLength := by rw [hbytes, hlen]
    have hloop := fun frames (honly : OnlyOpens crypto parsedHeader
        (deriveKey crypto stream.key parsedHeader) frames) =>
      stream.framedLoop_released crypto honly DecryptState.init rest rfl
    rw [← hrun] at hloop
    rcases onlyOpens_honest hideal hsalts hlen' (deriveKey crypto stream.key parsedHeader) with
      ⟨m, hm, packet, hpacket, hheader, honly⟩ | hnothing
    · obtain ⟨hfront, hend⟩ := hloop _ honly
      rw [hbytes] at hheader
      refine .inr ⟨m, hm, packet, hpacket, ?_, hfront, fun s hs hatEnd => ?_⟩
      · rw [hheader, hreceived]
        exact List.prefix_append _ _
      · obtain ⟨-, hrest, hout⟩ := hend s hs hatEnd
        refine ⟨?_, hout⟩
        rw [hreceived, Packet.bytes, hheader, hrest]
        rfl
    · -- the header of no message: not one frame opens
      obtain ⟨hfront, hend⟩ := hloop _ hnothing
      refine .inl ⟨List.prefix_nil.mp hfront, fun s hs hatEnd => ?_⟩
      exact absurd (hend s hs hatEnd).1 (Nat.not_lt_zero _)

/-- Pieces of a message, from the first on, are a prefix that ends with a frame. -/
theorem releasedFrom_of_front (hsalts : (messages.map (·.salt)).Nodup) {m : Message}
    (hm : m ∈ messages) {packet : Packet} (hpacket : m.packet crypto = .ok packet)
    {received : Bytes} (hheader : packet.header <+: received) {released : List Bytes}
    (hfront : released <+: pieces packet.frames) :
    ReleasedFrom crypto messages received released.flatten := by
  obtain ⟨frameSizeBytes, hsize, -, htake⟩ := Message.pieces_packet hpacket
  refine ⟨m, hm, packet, frameSizeBytes, hpacket, hsize, hheader, ?_, released.length, ?_⟩
  · intro m' hm' packet' hpacket' hheader'
    -- two headers of one length in front of the same bytes are equal
    have heq : packet'.header = packet.header := by
      refine List.IsPrefix.eq_of_length (List.prefix_of_prefix_length_le hheader' hheader ?_) ?_
      all_goals rw [Message.packet_header_length hpacket', Message.packet_header_length hpacket]
    exact message_unique hsalts hm' hm hpacket' hpacket heq
  · rw [← htake, ← List.prefix_iff_eq_take.mp hfront]

end Honest

/-! ### Two messages and their log -/

/-- Three bytes, in frames of two. -/
def sampleMessage : Message :=
  ⟨zeroSalt, [1, 2, 3], ⟨.aes256Gcm, List.replicate 32 7, some (.integer 2), none⟩, none⟩

/-- Another message under the same key, with another salt. -/
def otherMessage : Message :=
  ⟨⟨List.replicate 16 9, rfl⟩, [4, 5], sampleMessage.options, none⟩

def sampleMessages : List Message := [otherMessage, sampleMessage]

/-- The cipher calls behind both of them. -/
def sampleCalls : List (SealCall EncryptionAlgorithm) :=
  sampleMessages.flatMap fun m =>
    match m.packet checksumCrypto with
    | .ok packet => packet.frames.map (·.call)
    | .error _ => []

/-- Opens the frames of the two messages and nothing else. -/
def replayCrypto : Crypto where
  hkdfSync := checksumCrypto.hkdfSync
  cipher := checksumCrypto.cipher.replay sampleCalls

theorem replayCrypto_ideal :
    replayCrypto.cipher.Ideal (sealLog replayCrypto sampleMessages) := by
  intro a k n d x tag p h
  have hmem : (⟨a, k, n, d, p, x, tag⟩ : SealCall EncryptionAlgorithm) ∈ sampleCalls :=
    checksumCrypto.cipher.replay_ideal sampleCalls a k n d x tag p h
  obtain ⟨m, hm, hmem⟩ := List.mem_flatMap.mp hmem
  -- sealing does not depend on what opens
  have hsame : m.packet replayCrypto = m.packet checksumCrypto := rfl
  cases hpacket : m.packet checksumCrypto with
  | error e =>
    rw [hpacket] at hmem
    cases hmem
  | ok packet =>
    rw [hpacket] at hmem
    obtain ⟨frame, hframe, hcall⟩ := List.mem_map.mp hmem
    exact ⟨m, hm, packet, hsame.trans hpacket, frame, hframe, hcall⟩

/-- The bytes of the packet of `sampleMessage`. -/
def samplePacket : Bytes :=
  match sampleMessage.encrypt replayCrypto with
  | .ok data => data
  | .error _ => []

/-- Whatever a decryption stream is fed, and wherever it is stopped: what it has
    pushed is nothing, or whole frames of the one message whose header was
    received; and it ends well only when it was fed exactly the packet of that
    message and has pushed all of it. -/
theorem decryptStream_releases_front (crypto : Crypto) (messages : List Message)
    (hideal : crypto.cipher.Ideal (sealLog crypto messages))
    (hsalts : (messages.map (·.salt)).Nodup) (options : EncryptionFormatOptions)
    (contextLimits : Option EngineLimits) (chunks : List Bytes)
    (hhead : chunks.flatten.head? = magic.head?) :
    (∀ n, ((feedDecryptStream crypto options contextLimits chunks).out.take n).flatten = [] ∨
      ReleasedFrom crypto messages chunks.flatten
        ((feedDecryptStream crypto options contextLimits chunks).out.take n).flatten) ∧
    ((decryptStream crypto options contextLimits chunks).Succeeds →
      ∃ m ∈ messages, m.encrypt crypto = .ok chunks.flatten ∧
        (feedDecryptStream crypto options contextLimits chunks).out.flatten = m.data) := by
  rw [feedDecryptStream_eq, decryptStream_eq]
  cases assertEncryptionKey options.key with
  | error e =>
    exact ⟨fun n => .inl (by simp), fun hsucc => absurd hsucc (Emit.not_succeeds_fail e)⟩
  | ok _ =>
  simp only [Emit.ofExcept_ok, pure_bind]
  generalize DecryptionStream.mk options.key options.allowLegacyDecrypt (limitsFor contextLimits) =
    stream
  have hout := stream.feed_unknown_framed_out crypto DecryptionState.start rfl chunks hhead
  have hrun := run_start_honest hideal hsalts stream chunks.flatten
  constructor
  -- stopped anywhere, the stream has written no more than the loop
  · intro n
    rcases hrun with ⟨hnone, -⟩ | ⟨m, hm, packet, hpacket, hheader, hfront, -⟩
    · rw [show DecryptionState.start.framed = FramedState.start from rfl, hnone] at hout
      rw [List.prefix_nil.mp hout]
      exact .inl (by simp)
    · exact .inr (releasedFrom_of_front hsalts hm hpacket hheader
        (((List.take_prefix n _).trans hout).trans hfront))
  -- within the input limit it has written as much as the loop
  · intro hsucc
    have hlim : chunks.flatten.length ≤ stream.limits.maxInputBytes := by
      by_contra hover
      exact stream.not_succeeds_of_lt crypto chunks (Nat.lt_of_not_le hover) hsucc
    rw [stream.complete_framed crypto chunks hhead hlim] at hsucc
    obtain ⟨s, hs, hend⟩ := (Emit.succeeds_bind _ _).mp hsucc
    obtain ⟨_, hend⟩ := hend
    have hfeed := stream.feed_unknown_framed crypto DecryptionState.start rfl chunks hhead
      (by simpa [DecryptionState.start] using hlim)
    rcases hrun with ⟨-, hnever⟩ | ⟨m, hm, packet, hpacket, -, -, hwhole⟩
    · exact absurd hend (hnever s hs)
    · obtain ⟨hreceived, hpieces⟩ := hwhole s hs hend
      obtain ⟨_, -, hdata, -⟩ := Message.pieces_packet hpacket
      refine ⟨m, hm, ?_, ?_⟩
      · rw [hreceived]
        exact Message.encrypt_of_packet hpacket
      · rw [hfeed, Emit.bind_pure_out]
        rw [← hdata, ← hpieces]
        rfl

/-- Fed byte by byte, the packet of `sampleMessage` has released two bytes with its
    first frame. -/
theorem decryptStream_releases_first_frame :
    ReleasedFrom replayCrypto sampleMessages (samplePacket.map fun b => [b]).flatten
      ((feedDecryptStream replayCrypto sampleMessage.options none
        (samplePacket.map fun b => [b])).out.take 1).flatten := by
  have hhead : (samplePacket.map fun b => [b]).flatten.head? = magic.head? := by decide +kernel
  refine ((decryptStream_releases_front replayCrypto sampleMessages replayCrypto_ideal
    (by decide) sampleMessage.options none _ hhead).1 1).resolve_left ?_
  decide +kernel

/-- The buffer path accepts nothing but whole packets of the messages: no frame
    reordered, repeated, dropped, added or taken from another packet. -/
theorem decryptBuffer_authentic (crypto : Crypto) (messages : List Message)
    (hideal : crypto.cipher.Ideal (sealLog crypto messages))
    (hsalts : (messages.map (·.salt)).Nodup) (options : EncryptionFormatOptions)
    (contextLimits : Option EngineLimits) (data plaintext : Bytes)
    (hhead : data.head? = magic.head?)
    (h : decryptBuffer crypto data options contextLimits = .ok plaintext) :
    ∃ m ∈ messages, m.encrypt crypto = .ok data ∧ m.data = plaintext := by
  rw [decryptBuffer_eq] at h
  cases hkey : assertEncryptionKey options.key with
  | error e => rw [hkey] at h; cases h
  | ok _ =>
  rw [hkey] at h
  change ite _ _ _ = _ at h
  by_cases hlim : data.length > (limitsFor contextLimits).maxInputBytes
  · rw [if_pos hlim] at h
    cases h
  · rw [if_neg hlim, if_pos hhead] at h
    -- the stream would accept these bytes as one chunk, and release the plaintext
    let stream : DecryptionStream :=
      ⟨options.key, options.allowLegacyDecrypt, limitsFor contextLimits⟩
    obtain ⟨released, s, hrun, hend, hflat⟩ := stream.run_of_decryptFramed_ok crypto h
    rcases run_start_honest hideal hsalts stream data with
      ⟨-, hnever⟩ | ⟨m, hm, packet, hpacket, -, -, hwhole⟩
    · exact absurd hend (hnever s (by rw [hrun]))
    · obtain ⟨hreceived, hpieces⟩ := hwhole s (by rw [hrun]) hend
      obtain ⟨_, -, hdata, -⟩ := Message.pieces_packet hpacket
      rw [hrun] at hpieces
      refine ⟨m, hm, ?_, ?_⟩
      · rw [hreceived]
        exact Message.encrypt_of_packet hpacket
      · rw [← hflat, ← hdata, ← hpieces]

/-- The packet of `sampleMessage` is accepted, as the packet of that message. -/
theorem decryptBuffer_authentic_sample :
    ∃ m ∈ sampleMessages, m.encrypt replayCrypto = .ok samplePacket ∧ m.data = [1, 2, 3] :=
  decryptBuffer_authentic replayCrypto sampleMessages replayCrypto_ideal (by decide)
    sampleMessage.options none samplePacket [1, 2, 3] (by decide +kernel) (by decide +kernel)

end PipeX.EncryptionFormat
