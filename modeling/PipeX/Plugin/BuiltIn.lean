/-
  PipeX.Plugin.BuiltIn

  The plugins of this repository that stream as they process, as an engine sees
  them, and engines made of them.

  * `BuiltIn.readBy` — each of them reads, on either path, what a plugin like it has
    written on either path.
  * `builtIn_restored` — so engines made of them read one another.

  The worker pool is not among them: its stream has a framing that its buffer
  methods know nothing of.  Neither is KMS encryption, which does not stream.
-/
import PipeX.Core.Controllers.PathInversion
import PipeX.Core.Validation
import PipeX.Plugin.Compression
import PipeX.Plugin.Encryption
import PipeX.Plugin.EncryptionFormat.ChunkedEncryption
import PipeX.Plugin.EncryptionFormat.RoundTrip
import PipeX.Plugin.Hashing.Agreement
import PipeX.Plugin.Performance

namespace PipeX

open Aead Chunked EncryptionFormat

/-! ## As an engine sees them -/

/-- What a plugin class of this repository declares. -/
def builtInDeclaration (name version : String) (createStream : Bool) : ProcessorPlugin where
  name := name
  version := version
  -- `BasePlugin.reversible`
  reversible := .boolean true
  streaming := .undefined
  reverse := .own
  createStream := createStream

/-- The salts that an encryption draws, by the call or the stream it draws them for. -/
structure SaltDraws where
  process : ProcessorContext → Nat → Salt
  createStream : StreamPluginContext → Salt

/-- A plugin that streams as it processes. -/
inductive BuiltIn (Obj : Type) where
  | compression (plugin : CompressionPlugin)
  | encryption (plugin : EncryptionPlugin) (salts : SaltDraws)
  | hashing (plugin : HashingPlugin)
  | validation (plugin : ValidationPlugin Obj)
  | benchmark

/-- What the plugins use of Node and of msgpackr. -/
structure Libraries (Obj : Type) where
  crypto : Crypto
  hmac : Hmac
  zlib : Zlib
  host : Host Obj

/-- The error behind a `HashingError`. -/
def HashingError.error (_ : HashingError) : JsError :=
  ⟨"HashingError", some "HASHING_FAILED", "[PipeX] Hashing failed"⟩

/-- What an event pushes. -/
def HashingEvent.chunk : HashingEvent → Option Bytes
  | push bytes => some bytes
  | compared _ _ => none
  | metadata _ _ => none

namespace BuiltIn

variable {Obj : Type} (libraries : Libraries Obj) (retryOptions : Option DeclaredRetryOptions)

def toPlugin : BuiltIn Obj → Plugin
  | compression plugin =>
    { declaration := builtInDeclaration "compression" "3.0.0" true
      retryOptions
      process := fun ctx _ data =>
        ((plugin.process libraries.zlib ctx.limits data).mapError CompressionFailure.error).map some
      reverse := fun ctx _ data =>
        ((CompressionPlugin.reverse libraries.zlib ctx.limits data).mapError
          CompressionFailure.error).map some
      createStream := fun mode context =>
        Stage.mapError CompressionFailure.error
          (plugin.createStream libraries.zlib context.limits mode) }
  | encryption plugin salts =>
    { declaration := builtInDeclaration "encryption" "4.0.0" true
      retryOptions
      process := fun ctx attempt data =>
        (plugin.process libraries.crypto (salts.process ctx attempt) data ctx.limits).map some
      reverse := fun ctx _ data =>
        (plugin.reverse libraries.crypto data ctx.limits).map some
      createStream := fun mode context =>
        plugin.createStream libraries.crypto (salts.createStream context) mode context.limits }
  | hashing plugin =>
    { declaration := builtInDeclaration "hashing" "3.0.0" true
      retryOptions
      process := fun ctx _ data =>
        ((plugin.process libraries.hmac ctx.limits data).result.mapError HashingError.error).map some
      reverse := fun ctx _ data =>
        ((plugin.reverse libraries.hmac ctx.limits data).result.mapError HashingError.error).map some
      createStream := fun mode context chunks =>
        let stream := plugin.createStream libraries.hmac context.limits mode chunks
        ⟨stream.out.filterMap HashingEvent.chunk, stream.result.mapError HashingError.error⟩ }
  | validation plugin =>
    { declaration := builtInDeclaration "validation" "1.0.0" true
      retryOptions
      process := fun ctx _ data => (plugin.process libraries.host ctx.limits data).map some
      reverse := fun ctx _ data => (plugin.reverse libraries.host ctx.limits data).map some
      createStream := fun mode context =>
        plugin.createStream libraries.host context.limits mode }
  | benchmark =>
    { declaration := builtInDeclaration "benchmark" "2.0.0" false
      retryOptions
      process := fun _ _ data => .ok (some (BenchmarkPlugin.process 0 (fun _ => none) data).1)
      reverse := fun _ _ data => .ok (some (BenchmarkPlugin.reverse 0 (fun _ => none) data).1)
      createStream := fun _ _ _ => pure () }

/-- Each of them passes the checks of `use`, and streams and reverses. -/
theorem toPlugin_supports (plugin : BuiltIn Obj) :
    (∃ c, getPluginCapabilities (plugin.toPlugin libraries retryOptions).declaration = .ok c) ∧
      supportsStream (plugin.toPlugin libraries retryOptions).declaration = .ok true ∧
      supportsReverse (plugin.toPlugin libraries retryOptions).declaration = .ok true := by
  cases plugin <;> exact ⟨⟨_, rfl⟩, rfl, rfl⟩

/-! ## Who reads whom -/

/-- The second plugin is set up to read what the first one writes. -/
inductive Matches (limits : EngineLimits) : BuiltIn Obj → BuiltIn Obj → Prop
  | compression (writer reader : CompressionPlugin) :
      Matches limits (.compression writer) (.compression reader)
  | encryption {writer reader : EncryptionPlugin} (salts salts' : SaltDraws)
      (key : reader.options.key = writer.options.key) :
      Matches limits (.encryption writer salts) (.encryption reader salts')
  | hashing {writer reader : HashingPlugin} (algorithm : reader.algorithm = writer.algorithm)
      (secret : reader.secret = writer.secret) : Matches limits (.hashing writer) (.hashing reader)
  | validation {writer reader : ValidationPlugin Obj}
      (accepts : reader.validateOnReverse = true → ∀ data,
        writer.validate libraries.host limits data = .ok () →
        reader.validate libraries.host limits data = .ok ()) :
      Matches limits (.validation writer) (.validation reader)
  | benchmark : Matches limits .benchmark .benchmark

variable {libraries retryOptions}

theorem map_some_ok {ε : Type} {x : Except ε Bytes} {y : Bytes} :
    x.map some = .ok (some y) ↔ x = .ok y := by
  cases x with
  | error e => exact iff_of_false (fun h => nomatch h) (fun h => nomatch h)
  | ok a => simp [Except.map]

theorem map_some_eq_ok {ε : Type} {x : Except ε Bytes} {y : Bytes} (h : x = .ok y) :
    x.map some = .ok (some y) := map_some_ok.mpr h

section Restoring

variable {limits : EngineLimits} {retryOptions' : Option DeclaredRetryOptions}

theorem readBy_compression (hzlib : libraries.zlib.Lossless)
    (hpos : 1 ≤ pluginOutputLimit (some limits))
    (hmax : pluginOutputLimit (some limits) ≤ libraries.zlib.maxLength)
    (hretry : checkRetryOptions retryOptions' limits = .ok ()) (writer reader : CompressionPlugin) :
    ReadBy limits ((compression writer : BuiltIn Obj).toPlugin libraries retryOptions)
      ((compression reader).toPlugin libraries retryOptions') := by
  refine ⟨CompressionPlugin.Encoded libraries.zlib, writes_of_native rfl ?_ ?_,
    reads_of_native (c := _) rfl rfl rfl hretry ?_ ?_⟩
  · rintro ctx attempt x y rfl - h
    exact writer.process_encoded _ _ (mapError_ok.mp (map_some_ok.mp h))
  · rintro context chunks pushed rfl - h
    exact writer.compressStream_encoded _ _ (Emit.mapError_eq_ok.mp h)
  · rintro ctx x y rfl hx hy h
    exact map_some_eq_ok (mapError_ok.mpr
      (CompressionPlugin.reverse_encoded hzlib hpos hmax h (Within.le_input hy) hx))
  · rintro context chunks x rfl hx hy h
    obtain ⟨pushed, hpushed, hdata⟩ :=
      CompressionPlugin.decompressStream_encoded hzlib h (Within.le_input hy) hx
    exact ⟨pushed, Emit.mapError_eq_ok.mpr hpushed, hdata⟩

/-- Packets of a writing plugin, under whatever salt. -/
def Sealed (crypto : Crypto) (plugin : EncryptionPlugin) (limits : EngineLimits)
    (data encrypted : Bytes) : Prop :=
  ∃ salt packet, encryptPacket crypto salt data plugin.options (some limits) = .ok packet ∧
    encrypted = packet.bytes

/-- Both decoders open a packet of the key, and take it for no legacy packet. -/
theorem sealed_restored {crypto : Crypto} (hcorrect : crypto.cipher.Correct)
    {writer reader : EncryptionPlugin} (hkey : reader.options.key = writer.options.key)
    {data : Bytes} {chunks : List Bytes} (h : Sealed crypto writer limits data chunks.flatten)
    (hle : chunks.flatten.length ≤ pluginInputLimit (some limits)) :
    reader.reverse crypto chunks.flatten (some limits) = .ok data ∧
      ∀ salt, (reader.createStream crypto salt .decompress (some limits) chunks).Delivers (.ok data) := by
  obtain ⟨salt, packet, hpacket, hchunks⟩ := h
  obtain ⟨-, frameSizeBytes, -, -, hheader, -⟩ := encryptPacket_ok hpacket
  have hhead : chunks.flatten.head? = magic.head? := by
    rw [hchunks, Packet.bytes, hheader]
    rfl
  have hin : ¬ chunks.flatten.length > (limitsFor (some limits)).maxInputBytes :=
    Nat.not_lt_of_le hle
  have hopen : decryptFramed crypto chunks.flatten reader.options.key (limitsFor (some limits)) =
      .ok data := by
    rw [hchunks, hkey]
    exact decryptFramed_encryptPacket hcorrect hpacket
  refine ⟨?_, fun salt => ?_⟩
  · rw [EncryptionPlugin.reverse, decryptBuffer_eq, reader.assertEncryptionKey_ok]
    show (if chunks.flatten.length > _ then _ else _) = _
    rw [if_neg hin, if_pos hhead, hopen]
  · rw [EncryptionPlugin.createStream, decryptStream_eq, reader.assertEncryptionKey_ok,
      Emit.ofExcept_ok, Emit.pure_bind', ← hopen]
    exact complete_framed_delivers crypto ⟨_, _, _⟩ chunks hhead hle

theorem readBy_encryption (hcorrect : libraries.crypto.cipher.Correct)
    (hretry : checkRetryOptions retryOptions' limits = .ok ()) {writer reader : EncryptionPlugin}
    (salts salts' : SaltDraws) (hkey : reader.options.key = writer.options.key) :
    ReadBy limits ((encryption writer salts : BuiltIn Obj).toPlugin libraries retryOptions)
      ((encryption reader salts').toPlugin libraries retryOptions') := by
  refine ⟨Sealed libraries.crypto writer limits, writes_of_native rfl ?_ ?_,
    reads_of_native (c := _) rfl rfl rfl hretry ?_ ?_⟩
  · rintro ctx attempt x y rfl - h
    obtain ⟨packet, hpacket, rfl⟩ := encryptBuffer_ok (map_some_ok.mp h)
    exact ⟨_, packet, hpacket, rfl⟩
  · rintro context chunks pushed rfl - h
    rcases encryptStream_packet libraries.crypto (salts.createStream context) writer.options
      (some context.limits) chunks with ⟨packet, hpacket, hstream⟩ | ⟨-, hfails⟩
    · refine ⟨_, packet, hpacket, ?_⟩
      have hpushed : packet.header :: packet.frames.map SealedFrame.bytes = pushed :=
        congrArg Emit.out (hstream.symm.trans h)
      rw [← hpushed]
      rfl
    · exact absurd ⟨(), congrArg Emit.result h⟩ hfails
  · rintro ctx x y rfl - hy h
    have hrestored := @sealed_restored _ _ hcorrect _ _ hkey _ [y]
      (by rwa [List.flatten_singleton]) (by rw [List.flatten_singleton]; exact Within.le_input hy)
    rw [List.flatten_singleton] at hrestored
    exact map_some_eq_ok hrestored.1
  · rintro context chunks x rfl - hy h
    obtain ⟨hsucc, hout⟩ := (sealed_restored hcorrect hkey h (Within.le_input hy)).2
      (salts'.createStream context)
    obtain ⟨u, hresult⟩ := hsucc.mpr ⟨x, rfl⟩
    exact ⟨_, Emit.ext rfl hresult, hout x rfl⟩

theorem flatten_chunks (events : List HashingEvent) :
    (events.filterMap HashingEvent.chunk).flatten = events.flatMap HashingEvent.pushed := by
  induction events with
  | nil => rfl
  | cons event events ih =>
    rw [List.flatMap_cons, ← ih]
    cases event <;> rfl

theorem readBy_hashing (hretry : checkRetryOptions retryOptions' limits = .ok ())
    {writer reader : HashingPlugin} (halgorithm : reader.algorithm = writer.algorithm)
    (hsecret : reader.secret = writer.secret) :
    ReadBy limits ((hashing writer : BuiltIn Obj).toPlugin libraries retryOptions)
      ((hashing reader).toPlugin libraries retryOptions') := by
  have hsame : reader = writer := by
    cases reader
    cases writer
    cases halgorithm
    cases hsecret
    rfl
  subst hsame
  refine ⟨fun data out => reader.Fits (some limits) data.length ∧
    out = data ++ reader.digest libraries.hmac data, writes_of_native rfl ?_ ?_,
    reads_of_native (c := _) rfl rfl rfl hretry ?_ ?_⟩
  · rintro ctx attempt x y rfl - h
    exact (HashingPlugin.process_eq_ok _ _ _).mp (mapError_ok.mp (map_some_ok.mp h))
  · rintro context chunks pushed rfl - h
    have hresult : (reader.createStream libraries.hmac (some context.limits) .compress
        chunks).result = .ok () := mapError_ok.mp (congrArg Emit.result h)
    by_cases hfits : reader.Fits (some context.limits) chunks.flatten.length
    · refine ⟨hfits, ?_⟩
      rw [← HashingPlugin.delivered_compress _ _ _ hfits, HashingPlugin.delivered, ← flatten_chunks]
      exact congrArg List.flatten (congrArg Emit.out h).symm
    · exact absurd ⟨(), hresult⟩ (HashingPlugin.compress_exceeds _ _ _ hfits)
  · rintro ctx x y rfl hx hy ⟨hfits, rfl⟩
    have hsealed := HashingPlugin.sealed_of_fits reader libraries.hmac _ hfits
    exact map_some_eq_ok (mapError_ok.mpr ((HashingPlugin.reverse_eq_ok _ _ _).mpr hsealed))
  · rintro context chunks x rfl hx hy ⟨hfits, hchunks⟩
    have hsealed := HashingPlugin.sealed_of_fits reader libraries.hmac _ hfits
    rw [← hchunks] at hsealed
    obtain ⟨⟨u, hresult⟩, hout⟩ := HashingPlugin.delivered_decompress _ _ _ hsealed
    refine ⟨_, Emit.ext rfl (mapError_ok.mpr hresult), ?_⟩
    exact (flatten_chunks _).trans hout

/-- Data that a validation has let pass. -/
theorem readBy_validation (hretry : checkRetryOptions retryOptions' limits = .ok ())
    {writer reader : ValidationPlugin Obj}
    (haccepts : reader.validateOnReverse = true → ∀ data,
      writer.validate libraries.host limits data = .ok () →
      reader.validate libraries.host limits data = .ok ()) :
    ReadBy limits ((validation writer : BuiltIn Obj).toPlugin libraries retryOptions)
      ((validation reader).toPlugin libraries retryOptions') := by
  have hreverse : ∀ data, Within limits data →
      writer.process libraries.host (some limits) data = .ok data →
      reader.reverse libraries.host (some limits) data = .ok data := by
    intro data hdata h
    refine reader.reverse_of_ok _ _ (Nat.le_min.mpr ⟨Within.le_input hdata, hdata⟩) fun hmode => ?_
    exact haccepts hmode data ((writer.process_eq_ok _ _).mp h).1
  refine ⟨fun data out => writer.process libraries.host (some limits) data = .ok out,
    writes_of_native rfl ?_ ?_, reads_of_native (c := _) rfl rfl rfl hretry ?_ ?_⟩
  · rintro ctx attempt x y rfl - h
    exact map_some_ok.mp h
  · rintro context chunks pushed rfl - h
    obtain ⟨hsucc, hout⟩ := writer.createStream_computes libraries.host (some context.limits)
      .compress chunks
    have hrun : writer.createStream libraries.host (some context.limits) .compress chunks =
        ⟨pushed, .ok ()⟩ := h
    rw [hrun] at hsucc hout
    obtain ⟨all, hall⟩ := hsucc.mp ⟨(), rfl⟩
    rw [hout all hall]
    exact hall
  · rintro ctx x y rfl hx - h
    obtain rfl := ((writer.process_eq_ok _ _).mp h).2
    exact map_some_eq_ok (hreverse _ hx h)
  · rintro context chunks x rfl hx - h
    obtain ⟨-, hsame⟩ := (writer.process_eq_ok _ _).mp h
    rw [hsame] at h
    obtain ⟨hsucc, hout⟩ := reader.createStream_computes libraries.host (some context.limits)
      .decompress chunks
    have hwhole : reader.whole libraries.host (some context.limits) .decompress chunks.flatten =
        .ok x := by
      rw [hsame]
      exact hreverse x hx h
    obtain ⟨u, hresult⟩ := hsucc.mpr ⟨x, hwhole⟩
    exact ⟨_, Emit.ext rfl hresult, hout x hwhole⟩

theorem readBy_benchmark (hretry : checkRetryOptions retryOptions' limits = .ok ()) :
    ReadBy limits ((benchmark : BuiltIn Obj).toPlugin libraries retryOptions)
      (benchmark.toPlugin libraries retryOptions') := by
  have hands : ∀ retryOptions,
      ((benchmark : BuiltIn Obj).toPlugin libraries retryOptions).HandsOn := by
    refine fun retryOptions => ⟨fun _ _ _ => rfl, fun _ _ data => ?_⟩
    exact congrArg (fun data => Except.ok (some data)) (BenchmarkPlugin.reverse_data 0 _ data)
  exact ⟨Eq, writes_of_handsOn (hands _) rfl, reads_of_handsOn (hands _) rfl rfl rfl hretry⟩

/-- Whatever the first plugin writes, on either path, the second reads on either path. -/
theorem readBy {writer reader : BuiltIn Obj} (h : Matches libraries limits writer reader)
    (hcorrect : libraries.crypto.cipher.Correct) (hzlib : libraries.zlib.Lossless)
    (hpos : 1 ≤ limits.maxOutputBytes) (hmax : limits.maxOutputBytes ≤ libraries.zlib.maxLength)
    (hretry : checkRetryOptions retryOptions' limits = .ok ()) :
    ReadBy limits (writer.toPlugin libraries retryOptions)
      (reader.toPlugin libraries retryOptions') := by
  cases h with
  | compression writer reader => exact readBy_compression hzlib hpos hmax hretry writer reader
  | encryption salts salts' key => exact readBy_encryption hcorrect hretry salts salts' key
  | hashing algorithm secret => exact readBy_hashing hretry algorithm secret
  | validation accepts => exact readBy_validation hretry accepts
  | benchmark => exact readBy_benchmark hretry

end Restoring
/-- The plugins of an engine, each with its retry options. -/
def plugins (libraries : Libraries Obj)
    (configured : List (BuiltIn Obj × Option DeclaredRetryOptions)) : List Plugin :=
  configured.map fun item => item.1.toPlugin libraries item.2

end BuiltIn

/-! ## Engines -/

namespace EngineCode

variable {Obj : Type} {code code' : EngineCode Obj} {engine engine' : DataEngine}

/-- What an engine of built-in plugins has made of some bytes, by `run` or by `pipe`,
    an engine with matching plugins gives back, by `undo` or by a reversed `pipe`,
    however it is cut on the way. -/
theorem builtIn_restored {libraries : Libraries Obj}
    {writers readers : List (BuiltIn Obj × Option DeclaredRetryOptions)}
    (hwriters : code.plugins = BuiltIn.plugins libraries writers)
    (hreaders : code'.plugins = BuiltIn.plugins libraries readers)
    (hmatches : List.Forall₂ (fun writer reader =>
      BuiltIn.Matches libraries engine.limits writer.1 reader.1) writers readers)
    (hretry : ∀ reader ∈ readers, checkRetryOptions reader.2 engine.limits = .ok ())
    (hnonempty : readers ≠ []) (hcorrect : libraries.crypto.cipher.Correct)
    (hzlib : libraries.zlib.Lossless) (hvalid : engine.limits.Valid)
    (hmax : engine.limits.maxOutputBytes ≤ libraries.zlib.maxLength)
    (hruns : code'.RunsOn engine') (hlimits : engine'.limits = engine.limits)
    (hschema : code'.schema = none)
    (haudits : ∀ log, code'.auditLogger = some log → ∀ record, log record = .ok ())
    (hslot : engine'.activeRequests.card < engine'.limits.maxConcurrentOperations)
    {data encoded : Bytes} (hencoding : Encoding code engine data encoded)
    (hdata : data.length ≤ engine.limits.maxOutputBytes)
    (hencoded : encoded.length ≤ engine.limits.maxInputBytes) :
    (∀ requestId forceType, engine'.Fresh requestId → assertOriginalType forceType = .ok () →
      outcome ((code'.undoRaw requestId encoded forceType).run engine') =
        fromBuffer code'.host data forceType engine.limits.maxFrameBytes) ∧
    ∀ requestId cut, engine'.Fresh requestId → cut.flatten = encoded →
      ∃ delivered, outcome ((code'.pipe requestId true cut).run engine') = .ok delivered ∧
        delivered.flatten = data := by
  have hpos : 1 ≤ engine.limits.maxOutputBytes := hvalid.positive .maxOutputBytes (by decide)
  refine encoding_restored hencoding ⟨hruns, hlimits, ?_, ?_, hschema, haudits, hslot⟩ hdata hencoded
  · -- plugin by plugin
    rw [hwriters, hreaders, BuiltIn.plugins, BuiltIn.plugins, List.forall₂_map_left_iff,
      List.forall₂_map_right_iff]
    have hboth := ((List.forall₂_and_left _ _).mpr ⟨hretry, hmatches.flip⟩).flip
    exact hboth.imp fun writer reader h =>
      BuiltIn.readBy h.2 hcorrect hzlib hpos hmax h.1
  · rw [hreaders]
    exact fun hnil => hnonempty (List.map_eq_nil_iff.mp hnil)

/-- Compression, encryption and the benchmark. -/
def sampleBuiltIns : List (BuiltIn SampleObject × Option DeclaredRetryOptions) :=
  [(.compression ⟨⟨.gzip, none⟩, rfl⟩, none),
    (.encryption ⟨⟨.aes256Gcm, List.replicate 32 7, some (.integer 16), none⟩, rfl, rfl⟩
      ⟨fun _ _ => zeroSalt, fun _ => zeroSalt⟩, none),
    (.benchmark, none)]

def sampleLibraries : Libraries SampleObject :=
  ⟨checksumCrypto, HashingPlugin.knownHmac, CompressionPlugin.sampleZlib, sampleHost⟩

def builtInCode : EngineCode SampleObject :=
  sampleCode (BuiltIn.plugins sampleLibraries sampleBuiltIns) none

/-- Three bytes that a stream has encoded, and both paths back. -/
theorem builtIn_restored_three_bytes :
    ∃ encoded, (∃ delivered after,
        (builtInCode.pipe 1 false [[1], [2, 3]]).run (sampleEngine builtInCode) =
          .ok delivered after ∧ delivered.flatten = encoded) ∧
      outcome ((builtInCode.undoRaw 2 encoded .buffer).run (sampleEngine builtInCode)) =
        .ok (.buffer [1, 2, 3]) ∧
      ∃ delivered, outcome ((builtInCode.pipe 3 true [encoded.take 5, encoded.drop 5]).run
          (sampleEngine builtInCode)) = .ok delivered ∧ delivered.flatten = [1, 2, 3] := by
  have hsize : (outcome ((builtInCode.pipe 1 false [[1], [2, 3]]).run
      (sampleEngine builtInCode))).map (fun delivered => decide (delivered.flatten.length ≤ 1000)) =
      .ok true := by
    decide +kernel
  -- the stream goes through
  cases hrun : (builtInCode.pipe 1 false [[1], [2, 3]]).run (sampleEngine builtInCode) with
  | error e after =>
    rw [hrun] at hsize
    cases hsize
  | ok delivered after =>
    rw [hrun] at hsize
    have hshort : delivered.flatten.length ≤ 1000 := of_decide_eq_true (Except.ok.inj hsize)
    have hencoding := Encoding.pipe (sampleEngine_fresh builtInCode 1) hrun
    have hmatches : List.Forall₂ (fun writer reader => BuiltIn.Matches sampleLibraries
        (sampleEngine builtInCode).limits writer.1 reader.1) sampleBuiltIns sampleBuiltIns :=
      .cons (.compression _ _) (.cons (.encryption _ _ rfl) (.cons .benchmark .nil))
    have hretry : ∀ reader ∈ sampleBuiltIns,
        checkRetryOptions reader.2 (sampleEngine builtInCode).limits = .ok () := by
      intro reader hreader
      have hnone : reader.2 = none := by
        simp only [sampleBuiltIns, List.mem_cons, List.not_mem_nil, or_false] at hreader
        rcases hreader with rfl | rfl | rfl <;> rfl
      rw [hnone]
      exact checkRetryOptions_none defaultLimits_valid
    have hruns : builtInCode.RunsOn (sampleEngine builtInCode) :=
      sampleCode_runsOn (by decide) fun plugin hplugin => by
        obtain ⟨item, -, rfl⟩ := List.mem_map.mp hplugin
        exact (item.1.toPlugin_supports _ _).1
    obtain ⟨hundo, hpipe⟩ := builtIn_restored rfl rfl hmatches hretry (List.cons_ne_nil _ _)
      (Cipher.checksum_correct _ _) CompressionPlugin.sampleZlib_lossless defaultLimits_valid
      (by decide) hruns rfl rfl (fun _ hnone => nomatch hnone) (by decide) hencoding (by decide)
      (Nat.le_trans hshort (by decide))
    refine ⟨delivered.flatten, ⟨delivered, after, rfl, rfl⟩,
      hundo 2 .buffer (sampleEngine_fresh _ 2) rfl, hpipe 3 _ (sampleEngine_fresh _ 3) ?_⟩
    rw [List.flatten_cons, List.flatten_singleton, List.take_append_drop]

end EngineCode
end PipeX
