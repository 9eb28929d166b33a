/-
  PipeX.Plugin.EncryptionFormat.NonceUse

  No key is used with one nonce twice, over all packets that are ever written.

  `Writes` is the automaton that reads a packet while it is written; a buffer, and a
  stream at any moment and however it ends, follow it.  What is read are the frames with
  the cipher calls behind them; `encryptBuffer_written` and `encryptStream_written` say
  that their bytes are what the encryptors return and push.

  * `calls_numbered` — the calls of one packet, in order, use the nonces 0, 1, 2, ...
  * `nonces_once` — no pair of a key and a nonce comes twice in any number of packets.
-/
import Mathlib.Data.List.Forall2
import Mathlib.Data.List.Nodup
import PipeX.Lib.Trace
import PipeX.Plugin.EncryptionFormat.ChunkedEncryption

namespace PipeX.EncryptionFormat

open Chunked Aead

/-! ## The buffer path with its calls -/

/-- `encryptBuffer`; what it writes are its pushes to `frames`. -/
def writeBuffer (crypto : Crypto) (salt : Salt) (data : Bytes) (options : EncryptionFormatOptions)
    (contextLimits : Option EngineLimits) : Emit Written JsError Unit := do
  let start ← startPacket crypto salt data options contextLimits
  Emit.push (.header start.header)
  (encryptFrames crypto options.algorithm start.frameSizeBytes start.derivedKey start.header
    data).mapOut .frame

/-- It returns the bytes of all it has written. -/
theorem encryptBuffer_written (crypto : Crypto) (salt : Salt) (data : Bytes)
    (options : EncryptionFormatOptions) (contextLimits : Option EngineLimits) :
    encryptBuffer crypto salt data options contextLimits =
      (writeBuffer crypto salt data options contextLimits).result.map fun _ =>
        ((writeBuffer crypto salt data options contextLimits).out.map Written.bytes).flatten := by
  have hok : ∀ {α β : Type} (a : α) (f : α → Except JsError β), Except.ok a >>= f = f a :=
    fun _ _ => rfl
  rw [encryptBuffer_eq]
  unfold encryptPacket writeBuffer
  cases startPacket crypto salt data options contextLimits with
  | error e => rfl
  | ok start =>
    simp only [hok, Emit.liftM_eq, Emit.ofExcept_ok, pure_bind]
    -- from here on both push the header and the frames
    generalize encryptFrames crypto options.algorithm start.frameSizeBytes _ _ data = frames
    cases hresult : frames.result with
    | error e => simp [bind, Except.bind, Except.map, Emit.bind, Emit.push, hresult]
    | ok _ =>
      simp [bind, Except.bind, Except.map, Emit.bind, Emit.push, hresult, Packet.bytes,
        Written.bytes, pure, Except.pure, Function.comp_def]

/-! ## The automaton -/

/-- How far a packet is; the next frame has the given sequence number. -/
inductive Place where
  | opening (sequence : Nat)
  | frames (sequence : Nat)
  | closed

/-- The header first, then frames that count on, the final frame last. -/
inductive Writes (crypto : Crypto) (algorithm : EncryptionAlgorithm) (derivedKey header : Bytes) :
    Place → Written → Place → Prop where
  | header {sequence : Nat} : Writes crypto algorithm derivedKey header (.opening sequence)
      (.header header) (.frames sequence)
  | data {sequence : Nat} {plaintext : Bytes} {frame : SealedFrame}
      (sealed : encryptFrame crypto plaintext dataFrame sequence algorithm derivedKey header =
        .ok frame) :
      Writes crypto algorithm derivedKey header (.frames sequence) (.frame frame)
        (.frames (sequence + 1))
  | final {sequence : Nat} {frame : SealedFrame}
      (sealed : encryptFrame crypto [] finalFrame sequence algorithm derivedKey header = .ok frame) :
      Writes crypto algorithm derivedKey header (.frames sequence) (.frame frame) .closed

section Traced

variable {crypto : Crypto} {algorithm : EncryptionAlgorithm} {frameSizeBytes : FrameSize}
  {derivedKey header : Bytes}

/-- The outputs of the buffer path, as they are written. -/
theorem encryptFrames_traces (data : Bytes) :
    Traces (fun s frame t => Writes crypto algorithm derivedKey header s (.frame frame) t)
      (.frames 0) (encryptFrames crypto algorithm frameSizeBytes derivedKey header data)
      fun _ => .closed := by
  unfold encryptFrames
  refine Traces.bind (Traces.run (k := Place.frames) ?_ 0 data) fun sequence _ => ?_
  · intro sequence rest _
    show Traces _ _ (encryptPass crypto algorithm frameSizeBytes derivedKey header sequence rest) _
    unfold encryptPass
    refine Traces.ofExcept.bind fun frame hframe => ?_
    exact (Traces.push (.data hframe) rfl).bind fun _ _ => .pure rfl
  · refine Traces.ofExcept.bind fun frame hframe => ?_
    exact .push (.final hframe) rfl

end Traced

namespace EncryptionStream

variable (crypto : Crypto) (stream : EncryptionStream)

/-- A packet of this stream. -/
abbrev Continues : Place → Written → Place → Prop :=
  Writes crypto stream.algorithm stream.derivedKey stream.header

theorem pushDataFrame_traces (plaintext : Bytes) (dataFrames sequence : Nat) :
    Traces (Continues crypto stream) (.frames sequence)
      (pushDataFrame crypto stream plaintext dataFrames sequence)
      fun _ => .frames (sequence + 1) := by
  unfold pushDataFrame
  refine .failIf ?_
  exact Traces.ofExcept.bind fun frame hframe => .push (.data hframe) rfl

theorem copyLoop_traces (s : PendingFrame stream.frameSizeBytes.val) (input : Bytes) :
    Traces (Continues crypto stream) (.frames s.sequence) ((copyLoop crypto stream).run s input)
      fun s => .frames s.sequence := by
  refine Traces.run (k := fun s : PendingFrame _ => Place.frames s.sequence) (fun s input _ => ?_) s
    input
  show Traces _ _ (copyPass crypto stream s input) _
  unfold copyPass
  cases s.pending.fill input with
  | more p => exact .pure rfl
  | full plaintext rest =>
    exact (pushDataFrame_traces crypto stream plaintext s.dataFrames s.sequence).bind
      fun _ _ => .pure rfl

/-- Where a stream stands between two chunks. -/
def place (s : EncryptionState stream.frameSizeBytes.val) : Place :=
  if s.headerSent = false then .opening s.frames.sequence else .frames s.frames.sequence

/-- The header is written in front of the first frame, and never again. -/
theorem header_traces {α : Type} {s : EncryptionState stream.frameSizeBytes.val}
    {x : Emit Written JsError α} {next : α → Place}
    (h : Traces (Continues crypto stream) (.frames s.frames.sequence) x next) :
    Traces (Continues crypto stream) (stream.place s)
      (if s.headerSent = false then Emit.push (.header stream.header) >>= fun _ => x else x) next := by
  unfold place
  by_cases hsent : s.headerSent = false
  · rw [if_pos hsent, if_pos hsent]
    have hpush : Traces (Continues crypto stream) (.opening s.frames.sequence)
        (Emit.push (.header stream.header) : Emit Written JsError Unit)
        fun _ => .frames s.frames.sequence := .push .header rfl
    exact hpush.bind fun _ _ => h
  · rw [if_neg hsent, if_neg hsent]
    exact h

theorem transform_traces (s : EncryptionState stream.frameSizeBytes.val) (input : Bytes) :
    Traces (Continues crypto stream) (stream.place s) (transform crypto stream s input)
      stream.place := by
  unfold transform
  refine .failIf (.failIf (.failIf (header_traces crypto stream ?_)))
  exact (copyLoop_traces crypto stream s.frames input).bind fun frames _ => .pure rfl

theorem flushFrames_traces (s : PendingFrame stream.frameSizeBytes.val) :
    Traces (Continues crypto stream) (.frames s.sequence) (flushFrames crypto stream s)
      fun _ => .closed := by
  have hlast : ∀ sequence, Traces (Continues crypto stream) (.frames sequence)
      (Emit.ofExcept (encryptFrame crypto [] finalFrame sequence stream.algorithm stream.derivedKey
        stream.header) >>= fun frame => Emit.push (.frame frame)) fun _ => .closed :=
    fun sequence => Traces.ofExcept.bind fun frame hframe => .push (.final hframe) rfl
  unfold flushFrames
  refine .ite (fun _ => ?_) fun _ => ?_
  · refine (pushDataFrame_traces crypto stream s.pending.filled s.dataFrames s.sequence).bind ?_
    intro _ _
    rw [pure_bind]
    exact hlast _
  · exact hlast _

/-- Whatever a stream has written follows the automaton, at any moment and in the end. -/
theorem writer_traces (chunks : List Bytes) :
    Traces (Continues crypto stream) (.opening 0) ((writer crypto stream).feed stream.start chunks)
        stream.place ∧
      Traces (Continues crypto stream) (.opening 0)
        ((writer crypto stream).complete stream.start chunks) fun _ => .closed := by
  have hfeed := Traces.feed (writer crypto stream) (transform_traces crypto stream) stream.start
    chunks
  refine ⟨hfeed, hfeed.bind fun s _ => ?_⟩
  exact header_traces crypto stream (flushFrames_traces crypto stream s.frames)

end EncryptionStream

/-! ## The nonces of one packet -/

/-- The number of the next frame. -/
def Place.sequence : Place → Nat
  | .opening n => n
  | .frames n => n
  | .closed => 0

/-- A call under the key of the packet, with the nonce of its number. -/
def Numbered (derivedKey : Bytes) (sequence : Nat) (call : SealCall EncryptionAlgorithm) : Prop :=
  call.key = derivedKey ∧ nonceFor sequence = .ok call.nonce

theorem encryptFrame_numbered {crypto : Crypto} {plaintext key globalHeader : Bytes}
    {type sequence : Nat} {algorithm : EncryptionAlgorithm} {frame : SealedFrame}
    (h : encryptFrame crypto plaintext type sequence algorithm key globalHeader = .ok frame) :
    Numbered key sequence frame.call := by
  obtain ⟨_, nonce, -, hnonce, rfl⟩ := encryptFrame_ok h
  exact ⟨rfl, hnonce⟩

/-- The calls behind a packet that has been written from its front, however far: the
    nonces count on from the first. -/
theorem calls_numbered {crypto : Crypto} {algorithm : EncryptionAlgorithm} {derivedKey header : Bytes}
    {s t : Place} {written : List Written}
    (h : Path (Writes crypto algorithm derivedKey header) s written t) :
    List.Forall₂ (Numbered derivedKey)
      (List.range' s.sequence (written.filterMap Written.call).length)
      (written.filterMap Written.call) := by
  induction h with
  | nil s => exact .nil
  | cons first rest ih =>
    cases first with
    | header => exact ih
    | data sealed => exact .cons (encryptFrame_numbered sealed) ih
    | final sealed =>
      -- nothing is written behind the final frame
      cases rest with
      | nil => exact .cons (encryptFrame_numbered sealed) .nil
      | cons first _ => cases first

theorem key_of_numbered {derivedKey : Bytes} {sequences : List Nat}
    {calls : List (SealCall EncryptionAlgorithm)} (h : List.Forall₂ (Numbered derivedKey) sequences calls)
    {call : SealCall EncryptionAlgorithm} (hcall : call ∈ calls) : call.key = derivedKey := by
  induction h with
  | nil => cases hcall
  | cons first _ ih =>
    rcases List.mem_cons.mp hcall with rfl | hcall
    · exact first.1
    · exact ih hcall

/-- So no nonce comes twice. -/
theorem nonces_nodup_of_numbered {derivedKey : Bytes}
    {calls : List (SealCall EncryptionAlgorithm)}
    (h : List.Forall₂ (Numbered derivedKey) (List.range calls.length) calls) :
    (calls.map fun call => (call.key, call.nonce)).Nodup := by
  rw [List.Nodup, List.pairwise_map]
  refine List.pairwise_iff_getElem.mpr fun i j hi hj hlt heq => ?_
  obtain ⟨-, hi'⟩ := h.get (by rwa [List.length_range]) hi
  obtain ⟨-, hj'⟩ := h.get (by rwa [List.length_range]) hj
  simp only [List.get_eq_getElem, List.getElem_range] at hi' hj'
  have hnonce : calls[i].nonce = calls[j].nonce := (Prod.mk.inj heq).2
  rw [hnonce] at hi'
  have := nonceFor_inj hi' hj'
  omega

/-- The buffer path, wherever it stops. -/
theorem writeBuffer_path (crypto : Crypto) (salt : Salt) (data : Bytes)
    (options : EncryptionFormatOptions) (contextLimits : Option EngineLimits) :
    ∃ header t, Path (Writes crypto options.algorithm
        (crypto.hkdfSync options.key salt.val (deriveInfo options.algorithm)) header) (.opening 0)
      (writeBuffer crypto salt data options contextLimits).out t := by
  unfold writeBuffer
  cases hstart : startPacket crypto salt data options contextLimits with
  | error e => exact ⟨[], _, .nil _⟩
  | ok start =>
    obtain ⟨hkey, frameSizeBytes, hsize, hfits⟩ := startPacket_checks hstart
    rw [startPacket_of_fits crypto salt hkey hsize hfits] at hstart
    cases hstart
    rw [Emit.liftM_eq, Emit.ofExcept_ok, pure_bind]
    have hheader : Traces (Writes crypto options.algorithm
        (crypto.hkdfSync options.key salt.val (deriveInfo options.algorithm))
        (buildHeader options.algorithm frameSizeBytes salt)) (.opening 0)
        (Emit.push (.header (buildHeader options.algorithm frameSizeBytes salt)) :
          Emit Written JsError Unit) fun _ => .frames 0 := .push .header rfl
    exact ⟨_, (hheader.bind fun _ _ => (encryptFrames_traces data).mapOut).path⟩

/-! ## All packets -/

/-- What an encryptor is given: a buffer, or chunks, with or without an end. -/
inductive EncryptionInput where
  | buffer (data : Bytes)
  | stream (chunks : List Bytes) (ended : Bool)

/-- One use of an encryptor. -/
structure Encryption where
  salt : Salt
  options : EncryptionFormatOptions
  contextLimits : Option EngineLimits
  input : EncryptionInput

namespace Encryption

variable (crypto : Crypto) (e : Encryption)

/-- What it has written, up to where it has come. -/
def written : Emit Written JsError Unit :=
  match e.input with
  | .buffer data => writeBuffer crypto e.salt data e.options e.contextLimits
  | .stream chunks ended => do
    let stream ← createEncryptionStream crypto e.salt e.options e.contextLimits
    if ended then
      (stream.writer crypto).complete stream.start chunks
    else do
      let _ ← (stream.writer crypto).feed stream.start chunks
      pure ()

/-- The calls of the cipher that it has made. -/
def calls : List (SealCall EncryptionAlgorithm) := (e.written crypto).out.filterMap Written.call

/-- `hkdfSync('sha256', key, salt, info, 32)`. -/
def derivedKey : Bytes := crypto.hkdfSync e.options.key e.salt.val (deriveInfo e.options.algorithm)

/-- A packet under the key that its salt gives, written as far as it goes. -/
theorem path : ∃ header t,
    Path (Writes crypto e.options.algorithm (e.derivedKey crypto) header) (.opening 0)
      (e.written crypto).out t := by
  unfold written
  cases e.input with
  | buffer data => exact writeBuffer_path crypto e.salt data e.options e.contextLimits
  | stream chunks ended =>
    cases hcreate : createEncryptionStream crypto e.salt e.options e.contextLimits with
    | error err => exact ⟨[], _, .nil _⟩
    | ok stream =>
      obtain ⟨hkey, frameSizeBytes, hsize, hzero⟩ := createEncryptionStream_checks hcreate
      rw [createEncryptionStream_ok crypto e.salt hkey hsize hzero] at hcreate
      obtain ⟨hfeed, hcomplete⟩ := EncryptionStream.writer_traces crypto stream chunks
      cases hcreate
      simp only [Emit.liftM_eq, Emit.ofExcept_ok, pure_bind]
      cases ended with
      | true => exact ⟨_, hcomplete.path⟩
      | false =>
        rw [if_neg (by decide), Emit.bind_pure_out]
        exact ⟨_, hfeed.path⟩

end Encryption

/-- A stream that is ended pushes the bytes of all it has written. -/
theorem encryptStream_written (crypto : Crypto) (salt : Salt) (options : EncryptionFormatOptions)
    (contextLimits : Option EngineLimits) (chunks : List Bytes) :
    encryptStream crypto salt options contextLimits chunks =
      (Encryption.written crypto ⟨salt, options, contextLimits, .stream chunks true⟩).mapOut
        Written.bytes := by
  simp only [encryptStream, Encryption.written, EncryptionStream.machine,
    Transform.complete_mapOut, Emit.mapOut_bind, Emit.liftM_eq, Emit.mapOut_ofExcept, if_true]

/-- Packets from buffers and from streams that are cut anywhere, fail or never end: each is
    written from its front, its calls use the nonces 0, 1, 2, ..., and no pair of a key
    and a nonce is used twice over all of them, where their salts differ, and keys from
    different salts do. -/
theorem nonces_once (crypto : Crypto) {encryptions : List Encryption}
    (hsalts : (encryptions.map (·.salt)).Nodup)
    (hkeys : ∀ e ∈ encryptions, ∀ e' ∈ encryptions,
      e.derivedKey crypto = e'.derivedKey crypto → e.salt = e'.salt) :
    (∀ e ∈ encryptions,
      (∃ header t, Path (Writes crypto e.options.algorithm (e.derivedKey crypto) header)
        (.opening 0) (e.written crypto).out t) ∧
      List.Forall₂ (Numbered (e.derivedKey crypto)) (List.range (e.calls crypto).length)
        (e.calls crypto)) ∧
    ((encryptions.flatMap fun e => e.calls crypto).map fun call => (call.key, call.nonce)).Nodup := by
  have hnumbered : ∀ e : Encryption, List.Forall₂ (Numbered (e.derivedKey crypto))
      (List.range (e.calls crypto).length) (e.calls crypto) := by
    intro e
    obtain ⟨header, t, hpath⟩ := e.path crypto
    rw [List.range_eq_range']
    exact calls_numbered hpath
  refine ⟨fun e _ => ⟨e.path crypto, hnumbered e⟩, ?_⟩
  rw [List.map_flatMap, List.nodup_flatMap]
  refine ⟨fun e _ => nonces_nodup_of_numbered (hnumbered e), ?_⟩
  rw [List.Nodup, List.pairwise_map] at hsalts
  refine hsalts.imp_of_mem fun {e e'} he he' hne => ?_
  -- calls of two packets have different keys
  refine List.disjoint_left.mpr fun pair hpair hpair' => ?_
  obtain ⟨call, hcall, rfl⟩ := List.mem_map.mp hpair
  obtain ⟨call', hcall', heq⟩ := List.mem_map.mp hpair'
  apply hne
  apply hkeys e he e' he'
  rw [← key_of_numbered (hnumbered e) hcall, ← key_of_numbered (hnumbered e') hcall']
  exact (Prod.mk.inj heq).1.symm

/-- A buffer, and a stream that has been left in the middle, under one key. -/
def sampleEncryptions : List Encryption :=
  let options : EncryptionFormatOptions :=
    ⟨.aes256Gcm, List.replicate 32 7, some (.integer 2), none⟩
  [⟨zeroSalt, options, none, .buffer [1, 2, 3]⟩,
    ⟨⟨List.replicate 16 1, rfl⟩, options, none, .stream [[1], [2, 3]] false⟩]

/-- They have made four calls. -/
theorem nonces_once_sample :
    ((sampleEncryptions.flatMap fun e => e.calls checksumCrypto).length = 4) ∧
      ((sampleEncryptions.flatMap fun e => e.calls checksumCrypto).map
        fun call => (call.key, call.nonce)).Nodup := by
  have hkeys : (sampleEncryptions.map fun e => e.derivedKey checksumCrypto).Nodup := by
    decide +kernel
  refine ⟨by decide +kernel, (nonces_once checksumCrypto (by decide) ?_).2⟩
  intro e he e' he' heq
  rw [List.inj_on_of_nodup_map hkeys he he' heq]

end PipeX.EncryptionFormat
