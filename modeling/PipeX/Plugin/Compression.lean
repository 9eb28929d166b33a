/-
  PipeX.Plugin.Compression

  `src/plugin/compression.ts`.

  `node:zlib` is a parameter; what its two decompressors do to what its two
  compressors write is `Zlib.Lossless`.  A compressor may write other bytes on a
  stream than on a buffer, and other bytes for another cut of its input.
-/
import PipeX.Core.Controllers.PathInversion
import PipeX.Core.ResourceLimits
import PipeX.Lib.Compose

namespace PipeX

open Chunked Outcomes

/-! ## node:zlib -/

/-- The formats that `node:zlib` writes here. -/
inductive ZlibFormat where
  | gzip
  | brotli
deriving DecidableEq, Repr

/-- What is used of `node:zlib`, and `buffer.constants.MAX_LENGTH`. -/
structure Zlib where
  /-- `gzip` at a level and `brotliCompress` at a quality, without a bound -/
  compress : ZlibFormat → Int → Bytes → Bytes
  /-- `gunzip` and `brotliDecompress`, without a bound -/
  decompress : ZlibFormat → Bytes → Except JsError Bytes
  /-- `createGzip` and `createBrotliCompress` -/
  createCompress : ZlibFormat → Int → Stage UInt8 JsError
  /-- `createGunzip` and `createBrotliDecompress` -/
  createDecompress : ZlibFormat → Stage UInt8 JsError
  maxLength : Nat

namespace Zlib

variable (zlib : Zlib)

/-- A call with `maxOutputLength`, whose range is checked in front of it. -/
def bounded (maxOutputLength : Nat) (result : Except JsError Bytes) : Except JsError Bytes := do
  if maxOutputLength < 1 ∨ maxOutputLength > zlib.maxLength then
    throw ⟨"RangeError", some "ERR_OUT_OF_RANGE",
      "The value of \"options.maxOutputLength\" is out of range."⟩
  let out ← result
  if out.length > maxOutputLength then
    throw ⟨"RangeError", some "ERR_BUFFER_TOO_LARGE",
      s!"Cannot create a Buffer larger than {maxOutputLength} bytes"⟩
  return out

/-- What a compressor of the format has made of some bytes. -/
inductive Compressed (format : ZlibFormat) : Bytes → Bytes → Prop
  | buffer (level : Int) (data : Bytes) : Compressed format data (zlib.compress format level data)
  | stream {level : Int} {chunks pushed : List Bytes}
      (completed : zlib.createCompress format level chunks = ⟨pushed, .ok ()⟩) :
      Compressed format chunks.flatten pushed.flatten

/-- Whatever has been compressed, at whatever level, both decompressors restore. -/
structure Lossless : Prop where
  decompress : ∀ {format data compressed}, zlib.Compressed format data compressed →
    zlib.decompress format compressed = .ok data
  createDecompress : ∀ {format data} {cut : List Bytes}, zlib.Compressed format data cut.flatten →
    ∃ pushed, zlib.createDecompress format cut = ⟨pushed, .ok ()⟩ ∧ pushed.flatten = data

/-- The streams decompress what the functions do, however their input is cut. -/
def StreamsAsBuffers : Prop :=
  ∀ format, (zlib.createDecompress format).Computes (zlib.decompress format)

variable {zlib}

theorem bounded_ok {maxOutputLength : Nat} {result : Except JsError Bytes} {out : Bytes}
    (h : zlib.bounded maxOutputLength result = .ok out) :
    result = .ok out ∧ out.length ≤ maxOutputLength := by
  obtain ⟨-, h⟩ := Outcomes.guard_ok h
  obtain ⟨out', hresult, h⟩ := Outcomes.bind_ok h
  obtain ⟨hlen, h⟩ := Outcomes.guard_or_ok h
  cases h
  exact ⟨hresult, Nat.le_of_not_lt hlen⟩

theorem bounded_of_le {maxOutputLength : Nat} {out : Bytes} (hpos : 1 ≤ maxOutputLength)
    (hmax : maxOutputLength ≤ zlib.maxLength) (hlen : out.length ≤ maxOutputLength) :
    zlib.bounded maxOutputLength (.ok out) = .ok out := by
  have hrange : ¬ (maxOutputLength < 1 ∨ maxOutputLength > zlib.maxLength) := by omega
  have hfits : ¬ out.length > maxOutputLength := Nat.not_lt_of_le hlen
  simp only [bounded, if_neg hrange]
  exact if_neg hfits

end Zlib

/-! ## The plugin -/

inductive CompressionType where
  | none
  | gzip
  | brotli
deriving DecidableEq, Repr

/-- The format of `node:zlib`; `'none'` is not one. -/
def CompressionType.format : CompressionType → Option ZlibFormat
  | none => Option.none
  | gzip => some .gzip
  | brotli => some .brotli

/-- `TYPE_BYTE_MAP`. -/
def typeByteMap : CompressionType → UInt8
  | .none => 0
  | .gzip => 1
  | .brotli => 2

/-- `ID_TO_TYPE`. -/
def idToType : UInt8 → Option CompressionType
  | 0 => some .none
  | 1 => some .gzip
  | 2 => some .brotli
  | _ => Option.none

theorem idToType_typeByteMap (type : CompressionType) : idToType (typeByteMap type) = some type := by
  cases type <;> rfl

/-- What a call of the plugin throws. -/
inductive CompressionFailure where
  /-- `new CompressionError({ transformName: 'compression', stage })` -/
  | compression (stage : Option String)
  /-- `new UnsupportedAlgorithmError({ transformName: 'compression', stage })` -/
  | unsupported (stage : String)
  /-- an error of `node:zlib` or of a byte limit -/
  | other (error : JsError)
deriving DecidableEq, Repr

def CompressionFailure.error : CompressionFailure → JsError
  | .compression _ => ⟨"CompressionError", some "COMPRESSION_FAILED", "[PipeX] Compression failed"⟩
  | .unsupported _ =>
    ⟨"UnsupportedAlgorithmError", some "UNSUPPORTED_ALGORITHM", "[PipeX] Unsupported algorithm"⟩
  | .other error => error

/-- `CompressionOptions`, for one of the three types. -/
structure CompressionOptions where
  type : CompressionType
  level : Option JsNumber
deriving DecidableEq, Repr

/-- The level that the type admits. -/
def CompressionOptions.levelValid : CompressionOptions → Bool
  | ⟨_, none⟩ => true
  | ⟨_, some .nonInteger⟩ => false
  | ⟨.gzip, some (.integer n)⟩ => decide (0 ≤ n ∧ n ≤ 9)
  | ⟨.brotli, some (.integer n)⟩ => decide (0 ≤ n ∧ n ≤ 11)
  | ⟨.none, some (.integer _)⟩ => false

/-- A plugin whose constructor returned. -/
structure CompressionPlugin where
  options : CompressionOptions
  level_valid : options.levelValid = true

namespace CompressionPlugin

/-- `new CompressionPlugin(options)`. -/
def create (options : CompressionOptions) : Except CompressionFailure CompressionPlugin :=
  if h : options.levelValid = true then .ok ⟨options, h⟩ else .error (.compression none)

variable (plugin : CompressionPlugin) (zlib : Zlib) (limits : Option EngineLimits)

/-- `level ?? 6` and `level ?? 11`. -/
def level (format : ZlibFormat) : Int :=
  match plugin.options.level, format with
  | some (.integer n), _ => n
  | _, .gzip => 6
  | _, .brotli => 11

/-- `Buffer.from([TYPE_BYTE_MAP[type]])`. -/
def header : Bytes := [typeByteMap plugin.options.type]

/-! ### Buffers -/

/-- `process(data, ctx)`. -/
def process (data : Bytes) : Except CompressionFailure Bytes := do
  let maxInputBytes := pluginInputLimit limits
  let maxOutputBytes := pluginOutputLimit limits
  if data.length > maxInputBytes then
    throw (.compression (some "input"))
  let type := plugin.options.type
  if (data.length : Int) > (maxOutputBytes : Int) - plugin.header.length ∧ type = .none then
    throw (.compression (some "output"))
  if maxOutputBytes ≤ plugin.header.length ∧ type ≠ .none then
    throw (.compression (some "output"))
  let compressed ← match type.format with
    | some format => (zlib.bounded (maxOutputBytes - plugin.header.length)
        (.ok (zlib.compress format (plugin.level format) data))).mapError .other
    | none => .ok data
  return plugin.header ++ compressed

/-- `reverse(data, ctx)`; it does not depend on the options. -/
def reverse (data : Bytes) : Except CompressionFailure Bytes := do
  let maxInputBytes := pluginInputLimit limits
  let maxOutputBytes := pluginOutputLimit limits
  if data.length > maxInputBytes then
    throw (.compression (some "input"))
  match data with
  | [] => throw (.compression none)
  | typeId :: payload =>
    match idToType typeId with
    | none => throw (.unsupported "configuration")
    | some .gzip =>
      (zlib.bounded maxOutputBytes (zlib.decompress .gzip payload)).mapError .other
    | some .brotli =>
      (zlib.bounded maxOutputBytes (zlib.decompress .brotli payload)).mapError .other
    | some .none =>
      if payload.length > maxOutputBytes then
        throw (.compression (some "output"))
      return payload

/-! ### Streams -/

/-- `prependHeader`; the state is `headerSent`. -/
def prependHeader : Transform Bool Bytes Bytes CompressionFailure where
  transform headerSent chunk := do
    if !headerSent then
      Emit.push plugin.header
    Emit.push chunk
    return true
  flush headerSent := if !headerSent then Emit.push plugin.header else pure ()

/-- `new PassThrough()`. -/
def passBytes : Stage UInt8 CompressionFailure := fun chunks => ⟨chunks, .ok ()⟩

/-- `compressor`. -/
def compressor : Stage UInt8 CompressionFailure :=
  match plugin.options.type.format with
  | some format => Stage.mapError .other (zlib.createCompress format (plugin.level format))
  | none => passBytes

/-- `createStream('compress', context)`. -/
def compressStream : Stage UInt8 CompressionFailure :=
  compose [
    Stage.mapError .other
      ((buildByteLimitTransform (pluginInputLimit limits) "compression input").complete 0),
    plugin.compressor zlib,
    plugin.prependHeader.complete false,
    Stage.mapError .other
      ((buildByteLimitTransform (pluginOutputLimit limits) "compression output").complete 0)]

/-- `while (!first)`: the first chunk with a byte in it, `inputBytes` behind it, and the
    chunks that have not been read. -/
def readFirst (maxInputBytes : Nat) :
    (inputBytes : Nat) → List Bytes → Except CompressionFailure ((UInt8 × Bytes) × Nat × List Bytes)
  | _, [] => .error (.compression none)
  | inputBytes, chunk :: chunks =>
    if chunk.length > maxInputBytes - inputBytes then
      .error (.compression (some "input"))
    else
      match chunk with
      | [] => readFirst maxInputBytes inputBytes chunks
      | typeId :: remainder =>
        .ok ((typeId, remainder), inputBytes + (remainder.length + 1), chunks)

/-- The `while (true)` of `payload()`. -/
def readOthers (maxInputBytes : Nat) :
    (inputBytes : Nat) → List Bytes → Except CompressionFailure (List Bytes)
  | _, [] => .ok []
  | inputBytes, chunk :: chunks =>
    if chunk.length > maxInputBytes - inputBytes then
      .error (.compression (some "input"))
    else do
      let others ← readOthers maxInputBytes (inputBytes + chunk.length) chunks
      return if chunk.length > 0 then chunk :: others else others

/-- `decompressor`. -/
def decompressor : CompressionType → Stage UInt8 CompressionFailure
  | .gzip => Stage.mapError .other (zlib.createDecompress .gzip)
  | .brotli => Stage.mapError .other (zlib.createDecompress .brotli)
  | .none => passBytes

/-- The `for await` over what is decompressed; the state is `outputBytes`. -/
def limitOutput (maxOutputBytes : Nat) : Transform Nat Bytes Bytes CompressionFailure where
  transform outputBytes output :=
    if output.length > maxOutputBytes - outputBytes then
      Emit.fail (.compression (some "output"))
    else do
      Emit.push output
      return outputBytes + output.length
  flush _ := pure ()

/-- `createStream('decompress', context)`; it does not depend on the options. -/
def decompressStream : Stage UInt8 CompressionFailure := fun chunks => do
  let maxInputBytes := pluginInputLimit limits
  let ((typeId, remainder), inputBytes, unread) ← readFirst maxInputBytes 0 chunks
  match idToType typeId with
  | none => Emit.fail (.unsupported "decompress")
  | some detectedType =>
    let others ← readOthers maxInputBytes inputBytes unread
    let payload := if remainder.length > 0 then remainder :: others else others
    compose [decompressor zlib detectedType, (limitOutput (pluginOutputLimit limits)).complete 0]
      payload

/-- `createStream(mode, context)`. -/
def createStream (mode : StreamMode) : Stage UInt8 CompressionFailure :=
  match mode with
  | .compress => plugin.compressStream zlib limits
  | .decompress => decompressStream zlib limits

/-! ## What is written -/

/-- A type byte, and behind it what a compressor of the type has made of the data. -/
def Encoded (data encoded : Bytes) : Prop :=
  ∃ type payload, encoded = typeByteMap type :: payload ∧
    match CompressionType.format type with
    | some format => zlib.Compressed format data payload
    | none => payload = data

theorem process_encoded {data encoded : Bytes}
    (h : plugin.process zlib limits data = .ok encoded) : Encoded zlib data encoded := by
  simp only [process] at h
  -- the three checks
  obtain ⟨-, h⟩ := Outcomes.guard_ok h
  obtain ⟨-, h⟩ := Outcomes.guard_ok h
  obtain ⟨-, h⟩ := Outcomes.guard_ok h
  cases hformat : plugin.options.type.format with
  | none =>
    simp only [hformat] at h
    cases h
    exact ⟨plugin.options.type, data, rfl, by simp only [hformat]⟩
  | some format =>
    simp only [hformat] at h
    obtain ⟨compressed, hcompressed, h⟩ := Outcomes.bind_ok h
    cases h
    obtain ⟨hresult, -⟩ := Zlib.bounded_ok (mapError_ok.mp hcompressed)
    cases hresult
    refine ⟨plugin.options.type, _, rfl, ?_⟩
    simp only [hformat]
    exact .buffer _ _

/-- The type byte comes first, also where nothing follows it. -/
theorem prependHeader_complete (chunks : List Bytes) :
    plugin.prependHeader.complete false chunks = ⟨plugin.header :: chunks, .ok ()⟩ := by
  have hsent : ∀ chunks, plugin.prependHeader.complete true chunks = ⟨chunks, .ok ()⟩ := by
    intro chunks
    induction chunks with
    | nil => rfl
    | cons chunk chunks ih =>
      rw [Transform.complete_cons, show plugin.prependHeader.transform true chunk =
        ⟨[chunk], .ok true⟩ from rfl, Emit.bind_ok rfl, ih]
      rfl
  cases chunks with
  | nil => rfl
  | cons chunk chunks =>
    rw [Transform.complete_cons, show plugin.prependHeader.transform false chunk =
      ⟨[plugin.header, chunk], .ok true⟩ from rfl, Emit.bind_ok rfl, hsent]
    rfl

variable {zlib} in
theorem compressor_encoded {chunks pushed : List Bytes}
    (h : plugin.compressor zlib chunks = ⟨pushed, .ok ()⟩) :
    Encoded zlib chunks.flatten (plugin.header ++ pushed.flatten) := by
  refine ⟨plugin.options.type, pushed.flatten, rfl, ?_⟩
  simp only [compressor] at h
  cases hformat : plugin.options.type.format with
  | none =>
    rw [hformat] at h
    exact congrArg List.flatten (congrArg Emit.out h).symm
  | some format =>
    rw [hformat] at h
    exact .stream (Emit.mapError_eq_ok.mp h)

/-- A byte limit that went through has let everything pass. -/
theorem limit_ok {maxBytes : Nat} {label : String} {chunks out : List Bytes}
    (h : (Stage.mapError CompressionFailure.other
      ((buildByteLimitTransform maxBytes label).complete 0)).completed chunks = .ok out) :
    out.flatten = chunks.flatten ∧ chunks.flatten.length ≤ maxBytes := by
  rw [completed_mapError] at h
  have hrun : runStages [(buildByteLimitTransform maxBytes label).complete 0] chunks = .ok out := by
    simpa only [runStages, List.foldlM_cons, List.foldlM_nil, bind_pure] using mapError_ok.mp h
  obtain ⟨hle, hsame⟩ := limitBytes_ok
    (pieces_ok ((byteLimit_computes maxBytes label).realizes chunks) hrun)
  exact ⟨hsame, hle⟩

theorem compressStream_encoded {chunks pushed : List Bytes}
    (h : plugin.compressStream zlib limits chunks = ⟨pushed, .ok ()⟩) :
    Encoded zlib chunks.flatten pushed.flatten := by
  -- stage by stage
  obtain ⟨limited, hlimited, h⟩ := Outcomes.bind_ok (compose_eq_ok.mp h)
  obtain ⟨compressed, hcompressed, h⟩ := Outcomes.bind_ok h
  obtain ⟨headed, hheaded, h⟩ := Outcomes.bind_ok h
  obtain ⟨out, hout, h⟩ := Outcomes.bind_ok h
  cases h
  rw [(limit_ok hout).1]
  have hencoded := plugin.compressor_encoded (Emit.completed_ok hcompressed)
  rw [flatten_handOver, (limit_ok hlimited).1] at hencoded
  have hheader : (Stage.completed (plugin.prependHeader.complete false) compressed) =
      .ok (plugin.header :: handOver compressed) := by
    rw [Stage.completed, prependHeader_complete]
    rfl
  cases hheader.symm.trans hheaded
  rw [List.flatten_cons, flatten_handOver]
  exact hencoded

/-! ## What is read -/

/-- The first byte is found in whatever chunk it stands. -/
theorem readFirst_of_le {maxInputBytes inputBytes : Nat} {typeId : UInt8} {payload : Bytes}
    {chunks : List Bytes} (hchunks : chunks.flatten = typeId :: payload)
    (hle : inputBytes + chunks.flatten.length ≤ maxInputBytes) :
    ∃ remainder n unread, readFirst maxInputBytes inputBytes chunks =
        .ok ((typeId, remainder), n, unread) ∧
      remainder ++ unread.flatten = payload ∧ n + unread.flatten.length ≤ maxInputBytes := by
  induction chunks with
  | nil => cases hchunks
  | cons chunk chunks ih =>
    rw [List.flatten_cons, List.length_append] at hle
    have hin : ¬ chunk.length > maxInputBytes - inputBytes := by omega
    cases chunk with
    | nil =>
      simp only [readFirst, if_neg hin]
      exact ih hchunks (by simpa using hle)
    | cons first remainder =>
      rw [List.flatten_cons, List.cons_append, List.cons.injEq] at hchunks
      obtain ⟨rfl, hpayload⟩ := hchunks
      simp only [readFirst, if_neg hin]
      refine ⟨remainder, _, chunks, rfl, hpayload, ?_⟩
      rw [List.length_cons] at hle
      omega

/-- Without one byte there is no type. -/
theorem readFirst_empty {maxInputBytes inputBytes : Nat} {chunks : List Bytes}
    (h : chunks.flatten = []) :
    readFirst maxInputBytes inputBytes chunks = .error (.compression none) := by
  induction chunks with
  | nil => rfl
  | cons chunk chunks ih =>
    obtain ⟨rfl, hchunks⟩ := List.append_eq_nil_iff.mp h
    have hin : ¬ ([] : Bytes).length > maxInputBytes - inputBytes := Nat.not_lt_zero _
    simp only [readFirst, if_neg hin]
    exact ih hchunks

theorem readOthers_of_le {maxInputBytes inputBytes : Nat} {chunks : List Bytes}
    (hle : inputBytes + chunks.flatten.length ≤ maxInputBytes) :
    readOthers maxInputBytes inputBytes chunks = .ok (handOver chunks) := by
  induction chunks generalizing inputBytes with
  | nil => rfl
  | cons chunk chunks ih =>
    rw [List.flatten_cons, List.length_append] at hle
    have hin : ¬ chunk.length > maxInputBytes - inputBytes := by omega
    rw [readOthers, if_neg hin, ih (by omega)]
    cases chunk <;> rfl

/-- What has been counted up to the first byte fits, and with the rest it is the whole. -/
theorem readFirst_ok {maxInputBytes inputBytes n : Nat} {first : UInt8 × Bytes}
    {chunks unread : List Bytes} (hin : inputBytes ≤ maxInputBytes)
    (h : readFirst maxInputBytes inputBytes chunks = .ok (first, n, unread)) :
    n ≤ maxInputBytes ∧ n + unread.flatten.length = inputBytes + chunks.flatten.length := by
  induction chunks generalizing inputBytes with
  | nil => cases h
  | cons chunk chunks ih =>
    simp only [readFirst] at h
    split at h
    · cases h
    rename_i hfits
    cases chunk with
    | nil => simpa using ih hin h
    | cons typeId remainder =>
      cases h
      rw [List.length_cons] at hfits
      rw [List.flatten_cons, List.length_append, List.length_cons]
      omega

theorem readOthers_ok {maxInputBytes inputBytes : Nat} {chunks others : List Bytes}
    (hin : inputBytes ≤ maxInputBytes)
    (h : readOthers maxInputBytes inputBytes chunks = .ok others) :
    inputBytes + chunks.flatten.length ≤ maxInputBytes := by
  induction chunks generalizing inputBytes others with
  | nil => exact hin
  | cons chunk chunks ih =>
    rw [readOthers] at h
    split at h
    · cases h
    rename_i hfits
    obtain ⟨rest, hrest, -⟩ := Outcomes.bind_ok h
    have hle := ih (by omega) hrest
    rw [List.flatten_cons, List.length_append]
    omega

/-- The stream counts the chunks, and takes no more than the input limit in all. -/
theorem decompressStream_exceeds {chunks : List Bytes}
    (hlong : chunks.flatten.length > pluginInputLimit limits) :
    ¬ (decompressStream zlib limits chunks).Succeeds := by
  rw [decompressStream]
  cases hfirst : readFirst (pluginInputLimit limits) 0 chunks with
  | error e => exact Emit.not_succeeds_fail e
  | ok found =>
    obtain ⟨⟨typeId, remainder⟩, n, unread⟩ := found
    obtain ⟨hn, htotal⟩ := readFirst_ok (Nat.zero_le _) hfirst
    simp only [Emit.liftM_eq, Emit.ofExcept_ok, Emit.pure_bind']
    cases idToType typeId with
    | none => exact Emit.not_succeeds_fail _
    | some type =>
      cases hothers : readOthers (pluginInputLimit limits) n unread with
      | error e => exact Emit.not_succeeds_fail e
      | ok others =>
        -- all of it would have been counted
        have hle := readOthers_ok hn hothers
        omega

/-- Within the input limit the stream is the decompressor of the detected type behind
    some cut of the payload. -/
theorem decompressStream_eq {typeId : UInt8} {payload : Bytes} {chunks : List Bytes}
    (hchunks : chunks.flatten = typeId :: payload)
    (hle : chunks.flatten.length ≤ pluginInputLimit limits) :
    ∃ cut : List Bytes, cut.flatten = payload ∧ decompressStream zlib limits chunks =
      match idToType typeId with
      | none => Emit.fail (.unsupported "decompress")
      | some type => compose [decompressor zlib type,
          (limitOutput (pluginOutputLimit limits)).complete 0] cut := by
  obtain ⟨remainder, n, unread, hfirst, rfl, hunread⟩ :=
    readFirst_of_le hchunks (by omega : 0 + chunks.flatten.length ≤ pluginInputLimit limits)
  refine ⟨if remainder.length > 0 then remainder :: handOver unread else handOver unread, ?_, ?_⟩
  · cases remainder with
    | nil => simp
    | cons byte remainder => simp
  · simp only [decompressStream, hfirst, Emit.liftM_eq, Emit.ofExcept_ok, Emit.pure_bind',
      readOthers_of_le hunread]

/-- The output limit on the whole. -/
def limitWhole (maxOutputBytes : Nat) (data : Bytes) : Except CompressionFailure Bytes :=
  if data.length > maxOutputBytes then .error (.compression (some "output")) else .ok data

theorem limitOutput_computes (maxOutputBytes : Nat) :
    Stage.Computes ((limitOutput maxOutputBytes).complete 0) (limitWhole maxOutputBytes) := by
  intro chunks
  have hbudget : limitOutput maxOutputBytes =
      budget List.length maxOutputBytes (.compression (some "output")) Emit.push := rfl
  obtain ⟨hfits, hexceeds⟩ := @budget_completed Bytes CompressionFailure List.length maxOutputBytes
    (.compression (some "output")) Emit.push chunks fun _ _ => rfl
  rw [← List.length_flatten] at hfits hexceeds
  rw [hbudget]
  by_cases hlong : chunks.flatten.length > maxOutputBytes
  · rw [limitWhole, if_pos hlong]
    obtain ⟨e, he⟩ := hexceeds hlong
    refine Emit.delivers_error ?_ _
    rintro ⟨u, hu⟩
    rw [he] at hu
    cases hu
  · rw [limitWhole, if_neg hlong, hfits (Nat.le_of_not_lt hlong)]
    exact Emit.delivers_ok rfl rfl

/-- What `node:zlib` makes of the payload of a type, without a bound. -/
def decompressed (type : CompressionType) (payload : Bytes) : Except CompressionFailure Bytes :=
  match type.format with
  | some format => (zlib.decompress format payload).mapError .other
  | none => .ok payload

variable {zlib limits} in
theorem bounded_agree {maxOutputBytes : Nat} (hpos : 1 ≤ maxOutputBytes)
    (hmax : maxOutputBytes ≤ zlib.maxLength) (result : Except JsError Bytes) :
    Agree ((zlib.bounded maxOutputBytes result).mapError .other)
      (result.mapError .other >>= limitWhole maxOutputBytes) := by
  have hrange : ¬ (maxOutputBytes < 1 ∨ maxOutputBytes > zlib.maxLength) := by omega
  cases result with
  | error e =>
    simp only [Zlib.bounded, if_neg hrange]
    exact True.intro
  | ok out =>
    by_cases hlong : out.length > maxOutputBytes
    · simp only [Zlib.bounded, if_neg hrange]
      show Agree (Except.mapError _ (if out.length > maxOutputBytes then _ else _))
        (limitWhole maxOutputBytes out)
      rw [limitWhole, if_pos hlong, if_pos hlong]
      exact True.intro
    · rw [Zlib.bounded_of_le hpos hmax (Nat.le_of_not_lt hlong)]
      show Agree _ (limitWhole maxOutputBytes out)
      rw [limitWhole, if_neg hlong]
      rfl

/-- The buffer path behind the check of its input. -/
theorem reverse_agree (hpos : 1 ≤ pluginOutputLimit limits)
    (hmax : pluginOutputLimit limits ≤ zlib.maxLength) {typeId : UInt8} {payload : Bytes}
    (hle : (typeId :: payload).length ≤ pluginInputLimit limits) :
    Agree (reverse zlib limits (typeId :: payload)) (match idToType typeId with
      | none => .error (.unsupported "decompress")
      | some type => decompressed zlib type payload >>= limitWhole (pluginOutputLimit limits)) := by
  have hin : ¬ (typeId :: payload).length > pluginInputLimit limits := Nat.not_lt_of_le hle
  simp only [reverse, if_neg hin]
  cases idToType typeId with
  | none => exact True.intro
  | some type =>
    cases type with
    | none => exact agree_refl (limitWhole (pluginOutputLimit limits) payload)
    | gzip => exact bounded_agree hpos hmax _
    | brotli => exact bounded_agree hpos hmax _

/-! ## Both paths back -/

variable {zlib} in
theorem decompressor_computes (hzlib : zlib.StreamsAsBuffers) (type : CompressionType) :
    (decompressor zlib type).Computes (decompressed zlib type) := by
  have hwrapped : ∀ format, Stage.Computes (Stage.mapError CompressionFailure.other
      (zlib.createDecompress format)) fun data => (zlib.decompress format data).mapError .other :=
    fun format => computes_mapError _ (hzlib format)
  cases type with
  | none => exact fun chunks => Emit.delivers_ok rfl rfl
  | gzip => exact hwrapped .gzip
  | brotli => exact hwrapped .brotli

/-- A stream that is handed any bytes in whatever cut restores what `reverse` does, and
    fails where `reverse` fails. -/
theorem decompressStream_delivers (hzlib : zlib.StreamsAsBuffers)
    (hpos : 1 ≤ pluginOutputLimit limits) (hmax : pluginOutputLimit limits ≤ zlib.maxLength)
    (chunks : List Bytes) :
    (decompressStream zlib limits chunks).Delivers (reverse zlib limits chunks.flatten) := by
  by_cases hlong : chunks.flatten.length > pluginInputLimit limits
  · -- too long for either
    have hreverse : reverse zlib limits chunks.flatten = .error (.compression (some "input")) :=
      if_pos hlong
    rw [hreverse]
    exact Emit.delivers_error (decompressStream_exceeds zlib limits hlong) _
  have hle : chunks.flatten.length ≤ pluginInputLimit limits := Nat.le_of_not_lt hlong
  cases hchunks : chunks.flatten with
  | nil =>
    rw [decompressStream, readFirst_empty hchunks]
    exact Emit.delivers_error (Emit.not_succeeds_fail _) _
  | cons typeId payload =>
    obtain ⟨cut, hcut, hstream⟩ := decompressStream_eq zlib limits hchunks hle
    rw [hstream]
    refine Emit.Delivers.congr ?_ (agree_symm (reverse_agree zlib limits hpos hmax
      (hchunks ▸ hle)))
    cases idToType typeId with
    | none => exact Emit.delivers_error (Emit.not_succeeds_fail _) _
    | some type =>
      have hrow := realizes_append (decompressor_computes hzlib type).realizes
        (limitOutput_computes (pluginOutputLimit limits)).realizes
      rw [← hcut]
      exact compose_computes hrow cut

/-! ### Three bytes -/

/-- What `gzip` makes of the bytes 1, 2 and 3 at level 6. -/
def gzippedBytes : Bytes :=
  [31, 139, 8, 0, 0, 0, 0, 0, 0, 3, 99, 100, 98, 6, 0, 29, 128, 188, 85, 3, 0, 0, 0]

/-- It only marks other data. -/
def sampleCompress (data : Bytes) : Bytes :=
  if data = [1, 2, 3] then gzippedBytes else 0xff :: data

def sampleDecompress (compressed : Bytes) : Except JsError Bytes :=
  if compressed = gzippedBytes then
    .ok [1, 2, 3]
  else
    match compressed with
    | 0xff :: data => .ok data
    | _ => .error ⟨"Error", some "Z_DATA_ERROR", "incorrect header check"⟩

theorem sampleDecompress_sampleCompress (data : Bytes) :
    sampleDecompress (sampleCompress data) = .ok data := by
  by_cases h : data = [1, 2, 3]
  · subst h
    rfl
  · have hmarked : ¬ 0xff :: data = gzippedBytes := fun heq => absurd (List.cons.inj heq).1 (by decide)
    rw [sampleCompress, if_neg h, sampleDecompress, if_neg hmarked]

/-- A stand-in for `node:zlib` to evaluate with. -/
def sampleZlib : Zlib where
  compress _ _ data := sampleCompress data
  decompress _ compressed := sampleDecompress compressed
  createCompress _ _ chunks := Emit.push (sampleCompress chunks.flatten)
  createDecompress _ chunks := Emit.ofExcept (sampleDecompress chunks.flatten) >>= Emit.push
  maxLength := maxSafeInteger

theorem sampleZlib_streamsAsBuffers : sampleZlib.StreamsAsBuffers :=
  fun _ _ => Emit.delivers_push _

theorem sampleZlib_lossless : sampleZlib.Lossless := by
  have hbuffer : ∀ {format data compressed}, sampleZlib.Compressed format data compressed →
      sampleDecompress compressed = .ok data := by
    intro format data compressed h
    cases h with
    | buffer level data => exact sampleDecompress_sampleCompress data
    | @stream level chunks pushed completed =>
      have hpushed : [sampleCompress chunks.flatten] = pushed := congrArg Emit.out completed
      rw [← hpushed, List.flatten_singleton]
      exact sampleDecompress_sampleCompress chunks.flatten
  refine ⟨hbuffer, fun {format data cut} h => ?_⟩
  obtain ⟨hsucc, hout⟩ := sampleZlib_streamsAsBuffers format cut
  obtain ⟨u, hresult⟩ := hsucc.mpr ⟨data, hbuffer h⟩
  exact ⟨_, Emit.ext rfl hresult, hout data (hbuffer h)⟩

/-- The compressed bytes in two chunks. -/
theorem decompressStream_delivers_three_bytes :
    (decompressStream sampleZlib none [1 :: gzippedBytes.take 9, gzippedBytes.drop 9]).Delivers
      (.ok [1, 2, 3]) := by
  have h := decompressStream_delivers sampleZlib none sampleZlib_streamsAsBuffers (by decide)
    (by decide) [1 :: gzippedBytes.take 9, gzippedBytes.drop 9]
  exact h

variable {zlib limits}

/-- The decompressor of the type, in one piece and in a stream. -/
theorem decompressed_encoded (hzlib : zlib.Lossless) {type : CompressionType} {data payload : Bytes}
    (h : match CompressionType.format type with
      | some format => zlib.Compressed format data payload
      | none => payload = data) :
    decompressed zlib type payload = .ok data ∧ ∀ cut : List Bytes, cut.flatten = payload →
      ∃ pushed, decompressor zlib type cut = ⟨pushed, .ok ()⟩ ∧ pushed.flatten = data := by
  have hformat : ∀ format, zlib.Compressed format data payload →
      (zlib.decompress format payload).mapError CompressionFailure.other = .ok data ∧
        ∀ cut : List Bytes, cut.flatten = payload → ∃ pushed,
          Stage.mapError CompressionFailure.other (zlib.createDecompress format) cut =
            ⟨pushed, .ok ()⟩ ∧ pushed.flatten = data := by
    refine fun format hcompressed => ⟨by rw [hzlib.decompress hcompressed]; rfl, ?_⟩
    rintro cut rfl
    obtain ⟨pushed, hpushed, hdata⟩ := hzlib.createDecompress hcompressed
    exact ⟨pushed, Emit.mapError_eq_ok.mpr hpushed, hdata⟩
  cases type with
  | none => exact ⟨congrArg Except.ok h, fun cut hcut => ⟨cut, rfl, hcut.trans h⟩⟩
  | gzip => exact hformat .gzip h
  | brotli => exact hformat .brotli h

theorem reverse_encoded (hzlib : zlib.Lossless) (hpos : 1 ≤ pluginOutputLimit limits)
    (hmax : pluginOutputLimit limits ≤ zlib.maxLength) {data encoded : Bytes}
    (hencoded : Encoded zlib data encoded) (hle : encoded.length ≤ pluginInputLimit limits)
    (hdata : data.length ≤ pluginOutputLimit limits) : reverse zlib limits encoded = .ok data := by
  obtain ⟨type, payload, rfl, h⟩ := hencoded
  have hagree := reverse_agree zlib limits hpos hmax hle
  have hfits : ¬ data.length > pluginOutputLimit limits := Nat.not_lt_of_le hdata
  rw [idToType_typeByteMap] at hagree
  simp only [(decompressed_encoded hzlib h).1] at hagree
  rw [show (Except.ok data >>= limitWhole _ : Except CompressionFailure Bytes) = .ok data from
    if_neg hfits] at hagree
  exact agree_ok hagree

theorem decompressStream_encoded (hzlib : zlib.Lossless) {data : Bytes} {chunks : List Bytes}
    (hencoded : Encoded zlib data chunks.flatten)
    (hle : chunks.flatten.length ≤ pluginInputLimit limits)
    (hdata : data.length ≤ pluginOutputLimit limits) :
    ∃ pushed, decompressStream zlib limits chunks = ⟨pushed, .ok ()⟩ ∧ pushed.flatten = data := by
  obtain ⟨type, payload, hchunks, h⟩ := hencoded
  obtain ⟨cut, hcut, hstream⟩ := decompressStream_eq zlib limits hchunks hle
  simp only [idToType_typeByteMap] at hstream
  -- the payload comes out whole, and passes the output limit
  obtain ⟨pushed, hpushed, rfl⟩ := (decompressed_encoded hzlib h).2 (handOver cut)
    (by rw [flatten_handOver, hcut])
  have hfits : ¬ pushed.flatten.length > pluginOutputLimit limits := Nat.not_lt_of_le hdata
  have hlimit := (limitOutput_computes (pluginOutputLimit limits)).realizes pushed
  rw [limitWhole, if_neg hfits] at hlimit
  obtain ⟨out, hout, hsame⟩ := pieces_of_ok hlimit
  refine ⟨out, ?_, hsame⟩
  rw [hstream, compose_eq_ok]
  show (decompressor zlib type (handOver cut)).completed >>= runStages _ = _
  rw [hpushed]
  exact hout

end CompressionPlugin
end PipeX
