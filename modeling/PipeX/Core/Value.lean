/-
  PipeX.Core.Value

  JavaScript values as the buffer helpers of `src/core/core.ts` see them, and
  `isManifest` of `src/core/types.ts`.

  What Node, the language's own conversions and msgpackr contribute is the
  parameter `Host`.  Objects are opaque: the code looks at them through `Host`
  only.
-/
import PipeX.Core.FrameLimits.Scanner

namespace PipeX

open FrameLimits

/-! ## Values -/

/-- A string, by its UTF-16 code units. -/
abbrev JsString : Type := List UInt16

/-- A double: an integer, or any other value by its bits. -/
inductive JsDouble where
  | integer (n : Int)
  | other (bits : UInt64)
deriving DecidableEq, Repr

/-- `Number.isNaN`. -/
def JsDouble.isNaN : JsDouble → Bool
  | .integer _ => false
  | .other bits => decide (0x7ff0000000000000 < bits &&& 0x7fffffffffffffff)

/-- The bits of −0, which is a safe integer. -/
def negativeZero : UInt64 := 0x8000000000000000

/-- `Number.isSafeInteger(value) && value >= 0`. -/
def JsDouble.isSafeNatural : JsDouble → Bool
  | .integer n => decide (0 ≤ n ∧ n ≤ maxSafeInteger)
  | .other bits => decide (bits = negativeZero)

inductive Value (Obj : Type) where
  | undefined
  | null
  | boolean (value : Bool)
  | number (value : JsDouble)
  | bigint (value : Int)
  | string (value : JsString)
  | buffer (bytes : Bytes)
  | arrayBuffer (bytes : Bytes)
  | array (o : Obj)
  | object (o : Obj)
  /-- a symbol, and what `String` makes of it -/
  | symbol (text : JsString)
  /-- a function, and what `String` makes of it -/
  | function (text : JsString)
deriving DecidableEq, Repr

/-- What `detectType` can return, and `json`. -/
inductive TypeName where
  | buffer
  | object
  | array
  | string
  | number
  | boolean
  | null
  | undefined
  | bigint
  | json
  | symbol
  | function
deriving DecidableEq, Repr

/-- What the runtime and msgpackr contribute. -/
structure Host (Obj : Type) where
  /-- `Buffer.from(text, 'utf-8')` -/
  encodeUtf8 : JsString → Bytes
  /-- `buffer.toString('utf-8')` -/
  decodeUtf8 : Bytes → JsString
  /-- `String(value)` of a number or a bigint -/
  numberText : JsDouble → JsString
  bigintText : Int → JsString
  /-- `Number(text)` -/
  toNumber : JsString → JsDouble
  /-- `BigInt(text)`, unless it throws -/
  toBigInt : JsString → Option Int
  /-- `JSON.parse(text)`, unless it throws -/
  parseJson : JsString → Option (Value Obj)
  /-- `record[name]` -/
  property : Obj → String → Value Obj
  /-- the elements of an array -/
  elements : Obj → List (Value Obj)
  /-- `value.byteLength` where `ArrayBuffer.isView(value)` -/
  viewLength : Obj → Option Nat
  /-- `PACKR.pack(value)` -/
  pack : Value Obj → Except JsError Bytes
  /-- `UNPACKR.unpack(bytes)`, unless it throws -/
  unpack : Bytes → Option (Value Obj)
  /-- the values that `UNPACKR.unpackMultiple` hands over, and whether it goes through -/
  unpackMultiple : Bytes → List (Value Obj) × Bool

section Helpers

variable {Obj : Type} (host : Host Obj)

/-! ## Types -/

def detectType : Value Obj → TypeName
  | .null => .null
  | .buffer _ => .buffer
  | .array _ => .array
  | .object _ => .object
  | .arrayBuffer _ => .object
  | .undefined => .undefined
  | .boolean _ => .boolean
  | .number _ => .number
  | .bigint _ => .bigint
  | .string _ => .string
  | .symbol _ => .symbol
  | .function _ => .function

/-- `ORIGINAL_TYPES`. -/
def originalTypes : List TypeName :=
  [.buffer, .object, .array, .string, .number, .boolean, .null, .undefined, .bigint, .json]

def assertOriginalType (value : TypeName) : Except JsError Unit :=
  if value ∈ originalTypes then .ok () else .error (plainError "[PipeX] Unsupported original type")

/-! ## Bytes of a value -/

/-- The ASCII text of a boolean. -/
def booleanText : Bool → JsString
  | true => [0x74, 0x72, 0x75, 0x65]
  | false => [0x66, 0x61, 0x6c, 0x73, 0x65]

def toBuffer : Value Obj → Except JsError Bytes
  | .buffer bytes => .ok bytes
  | .arrayBuffer bytes => .ok bytes
  | .array o => host.pack (.array o)
  | .object o => host.pack (.object o)
  | .number n => .ok (host.encodeUtf8 (host.numberText n))
  | .boolean b => .ok (host.encodeUtf8 (booleanText b))
  | .string s => .ok (host.encodeUtf8 s)
  | .bigint n => .ok (host.encodeUtf8 (host.bigintText n))
  | .symbol text => .ok (host.encodeUtf8 text)
  | .function text => .ok (host.encodeUtf8 text)
  | .null => .ok (host.encodeUtf8 [])
  | .undefined => .ok (host.encodeUtf8 [])

/-- The length in bytes of a value that has one. -/
def knownByteLength : Value Obj → Option Nat
  | .string s => some (host.encodeUtf8 s).length
  | .buffer bytes => some bytes.length
  | .arrayBuffer bytes => some bytes.length
  | .object o => host.viewLength o
  | _ => none

def assertKnownValueByteLimit (value : Value Obj) (maxBytes : Nat) (label : String) :
    Except JsError Unit :=
  match knownByteLength host value with
  | some byteLength =>
    if byteLength > maxBytes then
      .error (plainError s!"[PipeX] {label} exceeds {maxBytes} bytes")
    else
      .ok ()
  | none => .ok ()

/-- The decoding branch of `fromBuffer`, for `array` and `object`. -/
def fromMessagePack (buffer : Bytes) (maxFrameBytes : Nat) (expected : Value Obj → Bool) :
    Except JsError (Value Obj) := do
  let _ ← assertMessagePackFrameLimits buffer maxFrameBytes 1
  match host.unpack buffer with
  | none => throw (plainError "[PipeX] fromBuffer: invalid MessagePack input")
  | some decoded =>
    if expected decoded then
      return decoded
    else
      throw (plainError "[PipeX] Decoded value does not match the expected type")

/-- `Array.isArray(value)`. -/
def Value.isArray : Value Obj → Bool
  | .array _ => true
  | _ => false

/-- `value !== null && typeof value === 'object' && !Array.isArray(value)`. -/
def Value.isRecord : Value Obj → Bool
  | .object _ => true
  | .buffer _ => true
  | .arrayBuffer _ => true
  | _ => false

def fromBuffer (buffer : Bytes) (targetType : TypeName) (maxFrameBytes : Nat) :
    Except JsError (Value Obj) := do
  assertOriginalType targetType
  let text := host.decodeUtf8 buffer
  match targetType with
  | .array => fromMessagePack host buffer maxFrameBytes Value.isArray
  | .object => fromMessagePack host buffer maxFrameBytes Value.isRecord
  | .json =>
    match host.parseJson text with
    | some value => return value
    | none => throw (plainError "[PipeX] fromBuffer: invalid JSON input")
  | .number =>
    if (host.toNumber text).isNaN then
      throw (plainError "[PipeX] fromBuffer: invalid number")
    else
      return .number (host.toNumber text)
  | .bigint =>
    match host.toBigInt text with
    | some n => return .bigint n
    | none => throw (plainError "[PipeX] fromBuffer: invalid bigint")
  | .boolean =>
    if text = booleanText true then
      return .boolean true
    else if text = booleanText false then
      return .boolean false
    else
      throw (plainError "[PipeX] fromBuffer: invalid boolean")
  | .string => return .string text
  | .null =>
    if buffer.length ≠ 0 then
      throw (plainError "[PipeX] Payload does not match the expected empty type")
    else
      return .null
  | .undefined =>
    if buffer.length ≠ 0 then
      throw (plainError "[PipeX] Payload does not match the expected empty type")
    else
      return .undefined
  | _ => return .buffer buffer

/-- A buffer is its own encoding, -/
@[simp] theorem toBuffer_buffer (bytes : Bytes) : toBuffer host (.buffer bytes) = .ok bytes := rfl

/-- and its own decoding. -/
@[simp] theorem fromBuffer_buffer (bytes : Bytes) (maxFrameBytes : Nat) :
    fromBuffer host bytes .buffer maxFrameBytes = .ok (.buffer bytes) := rfl

/-! ## Manifests -/

/-- `PipeXManifest`, whose `__pipex_v` is 1. -/
structure PipeXManifest where
  plugins : List JsString
  ts : JsDouble
deriving DecidableEq, Repr

/-- A string of at most 256 code units. -/
def pluginId : Value Obj → Option JsString
  | .string s => if s.length ≤ 256 then some s else none
  | _ => none

/-- `typeof value === 'object'`, where properties of an application can stand. -/
def Value.record : Value Obj → Option Obj
  | .array o => some o
  | .object o => some o
  | _ => none

/-- What a value holds that `isManifest` accepts. -/
def manifestOf (value : Value Obj) : Option PipeXManifest :=
  match value.record with
  | none => none
  | some record =>
    match host.property record "__pipex_v", host.property record "plugins",
      host.property record "ts" with
    | .number (.integer 1), .array list, .number ts =>
      let plugins := host.elements list
      if plugins.length ≤ 256 ∧ ts.isSafeNatural then
        (plugins.mapM pluginId).map fun plugins => ⟨plugins, ts⟩
      else
        none
    | _, _, _ => none

def isManifest (value : Value Obj) : Bool := (manifestOf host value).isSome

end Helpers
end PipeX
