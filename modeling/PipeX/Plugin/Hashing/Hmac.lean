/-
  PipeX.Plugin.Hashing.Hmac

  `HashingPlugin` of `src/plugin/hashing.ts`: an HMAC behind the data.

  The incremental HMAC of `node:crypto` is a function of the concatenation of its
  updates.  A run of any of the four methods is what can be seen of it from
  outside: the bytes a stream pushes, the digest comparisons, and the entries that
  are made in the metadata of the context.
-/
import PipeX.Core.DataEngine.Engine
import PipeX.Core.Runtime
import PipeX.Lib.Chunked

namespace PipeX

open Chunked DataEngine

inductive HashAlgorithm where
  | sha256
  | sha512
deriving DecidableEq, Repr

/-- `HASH_LENGTHS`. -/
def HashAlgorithm.hashLength : HashAlgorithm → Nat
  | .sha256 => 32
  | .sha512 => 64

/-- `createHmac(algorithm, secret)`, updated with some bytes and finished. -/
structure Hmac where
  digest : HashAlgorithm → String → Bytes → Bytes
  length_digest : ∀ algorithm secret bytes,
    (digest algorithm secret bytes).length = algorithm.hashLength

/-- `new HashingError({ transformName: 'hashing', stage })`. -/
structure HashingError where
  stage : Option String
deriving DecidableEq, Repr

/-- A plugin whose constructor returned.  That the algorithm is one of the two is in
    its type. -/
structure HashingPlugin where
  algorithm : HashAlgorithm
  secret : String
  secret_long : 16 ≤ utf16Length secret

/-- What can be seen of a run. -/
inductive HashingEvent where
  | push (bytes : Bytes)
  | compared (attached expected : Bytes)
  | metadata (key value : String)

def HashingEvent.pushed : HashingEvent → Bytes
  | push bytes => bytes
  | compared _ _ => []
  | metadata _ _ => []

/-- `bytes.toString('hex')`. -/
def hexText (bytes : Bytes) : String :=
  String.ofList (bytes.flatMap fun b => [Nat.digitChar (b.toNat / 16), Nat.digitChar (b.toNat % 16)])

namespace HashingPlugin

/-- `new HashingPlugin(options)`. -/
def create (algorithm : HashAlgorithm) (secret : String) : Except HashingError HashingPlugin :=
  if h : 16 ≤ utf16Length secret then .ok ⟨algorithm, secret, h⟩ else .error ⟨none⟩

section Code

variable (plugin : HashingPlugin) (hmac : Hmac) (limits : Option EngineLimits)

/-- The digest of this plugin. -/
def digest (data : Bytes) : Bytes := hmac.digest plugin.algorithm plugin.secret data

/-- `HASH_LENGTHS[this.options.algorithm]`. -/
def len : Nat := plugin.algorithm.hashLength

/-! ## Buffers -/

/-- `process(data, context)`. -/
def process (data : Bytes) : Emit HashingEvent HashingError Bytes := do
  if data.length > pluginInputLimit limits then
    Emit.fail ⟨some "input"⟩
  if (data.length : Int) > (pluginOutputLimit limits : Int) - plugin.len then
    Emit.fail ⟨some "output"⟩
  let digest := plugin.digest hmac data
  Emit.push (.metadata "hmac" (hexText digest))
  return data ++ digest

/-- `reverse(data, context)`. -/
def reverse (data : Bytes) : Emit HashingEvent HashingError Bytes := do
  if data.length > pluginInputLimit limits then
    Emit.fail ⟨some "input"⟩
  if data.length < plugin.len then
    Emit.fail ⟨none⟩
  if data.length - plugin.len > pluginOutputLimit limits then
    Emit.fail ⟨some "output"⟩
  let originalData := data.take (data.length - plugin.len)
  let attachedHash := data.drop (data.length - plugin.len)
  let expected := plugin.digest hmac originalData
  -- `timingSafeEqual(attachedHash, expected)`
  Emit.push (.compared attachedHash expected)
  if attachedHash ≠ expected then
    Emit.fail ⟨none⟩
  Emit.push (.metadata "verified_hmac" (hexText attachedHash))
  return originalData

/-! ## Streams -/

/-- The variables of a stream in `compress` mode; `hashed` is what the HMAC has been
    updated with. -/
structure CompressState where
  total : Nat
  hashed : Bytes

/-- The variables of a stream in `decompress` mode. -/
structure DecompressState where
  total : Nat
  chunks : List Bytes

/-- `transform(chunk)` in `compress` mode. -/
def compressChunk (s : CompressState) (chunk : Bytes) :
    Emit HashingEvent HashingError CompressState := do
  if (chunk.length : Int) > (pluginInputLimit limits : Int) - s.total then
    Emit.fail ⟨some "input"⟩
  if (chunk.length : Int) > (pluginOutputLimit limits : Int) - plugin.len - s.total then
    Emit.fail ⟨some "output"⟩
  Emit.push (.push chunk)
  return ⟨s.total + chunk.length, s.hashed ++ chunk⟩

/-- `flush()` in `compress` mode. -/
def compressFlush (s : CompressState) : Emit HashingEvent HashingError Unit :=
  Emit.push (.push (plugin.digest hmac s.hashed))

def compressor : Transform CompressState Bytes HashingEvent HashingError where
  transform := plugin.compressChunk limits
  flush := plugin.compressFlush hmac

/-- `transform(chunk)` in `decompress` mode. -/
def decompressChunk (s : DecompressState) (chunk : Bytes) :
    Emit HashingEvent HashingError DecompressState := do
  if (chunk.length : Int) > (pluginInputLimit limits : Int) - s.total then
    Emit.fail ⟨some "input"⟩
  return ⟨s.total + chunk.length, s.chunks ++ [chunk]⟩

/-- `flush()` in `decompress` mode. -/
def decompressFlush (s : DecompressState) : Emit HashingEvent HashingError Unit := do
  let buffer := bufferConcat s.chunks s.total
  if buffer.length < plugin.len then
    Emit.fail ⟨none⟩
  let originalData := buffer.take (buffer.length - plugin.len)
  if originalData.length > pluginOutputLimit limits then
    Emit.fail ⟨some "output"⟩
  let attachedHash := buffer.drop (buffer.length - plugin.len)
  let expected := plugin.digest hmac originalData
  -- `timingSafeEqual(attachedHash, expected)`
  Emit.push (.compared attachedHash expected)
  if attachedHash ≠ expected then
    Emit.fail ⟨none⟩
  Emit.push (.push originalData)

def decompressor : Transform DecompressState Bytes HashingEvent HashingError where
  transform := decompressChunk limits
  flush := plugin.decompressFlush hmac limits

def CompressState.start : CompressState := ⟨0, []⟩

def DecompressState.start : DecompressState := ⟨0, []⟩

/-- `createStream(mode, context)`, handed the chunks and ended; in `compress` mode the
    stream is constructed first. -/
def createStream (mode : StreamMode) (chunks : List Bytes) : Emit HashingEvent HashingError Unit :=
  match mode with
  | .compress =>
    if pluginOutputLimit limits < plugin.len then
      Emit.fail ⟨some "output"⟩
    else
      (plugin.compressor hmac limits).complete CompressState.start chunks
  | .decompress => (plugin.decompressor hmac limits).complete DecompressState.start chunks

end Code

/-- The bytes that came out of a stream. -/
def delivered (stream : Emit HashingEvent HashingError Unit) : Bytes :=
  stream.out.flatMap HashingEvent.pushed

end HashingPlugin
end PipeX
