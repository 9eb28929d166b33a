/-
  PipeX.Core.FrameLimits.Scanner

  `MessagePackFrameScanner` and `assertMessagePackFrameLimits` of
  `src/core/frameLimits.ts`.

  The private fields are the fields of `MessagePackFrameScanner`; a method that
  changes them returns the new scanner.  The `while` loop of `scan` runs over the
  bytes of the chunk from `offset` on, and what it writes are its boundaries.
-/
import PipeX.Core.Errors
import PipeX.Core.Runtime
import PipeX.Lib.Chunked

namespace PipeX.FrameLimits

open Chunked

inductive LengthKind where
  | array
  | map
  | payload
  | extension
deriving DecidableEq, Repr

structure PendingLength where
  kind : LengthKind
  bytes : Nat
  read : Nat
  value : Nat
deriving DecidableEq, Repr

structure MessagePackFrameScanner where
  frameBytes : Nat
  remainingValues : Nat
  payloadBytes : Nat
  extensionTypePending : Bool
  pending : Option PendingLength
  frames : Nat
deriving DecidableEq, Repr

/-- `scan` in the middle of a chunk. -/
structure ScanState where
  scanner : MessagePackFrameScanner
  offset : Nat
deriving DecidableEq, Repr

def invalidInput {α : Type} : Except JsError α :=
  .error (plainError "[PipeX] Invalid MessagePack input")

namespace MessagePackFrameScanner

/-- `new MessagePackFrameScanner(maxFrameBytes, maxFrames)`. -/
def new : MessagePackFrameScanner := ⟨0, 1, 0, false, none, 0⟩

def finish (s : MessagePackFrameScanner) : Except JsError Unit :=
  if s.frameBytes ≠ 0 ∨ s.pending.isSome ∨ s.payloadBytes ≠ 0 then
    .error (plainError "[PipeX] Invalid MessagePack input: incomplete frame")
  else .ok ()

def readLength (s : MessagePackFrameScanner) (kind : LengthKind) (bytes : Nat) :
    MessagePackFrameScanner :=
  { s with pending := some ⟨kind, bytes, 0, 0⟩ }

variable (maxFrameBytes maxFrames : Nat)

def frameTooLarge {α : Type} : Except JsError α :=
  .error (plainError s!"[PipeX] MessagePack frame exceeds {maxFrameBytes} bytes")

def consumeBytes (s : MessagePackFrameScanner) (count : Nat) :
    Except JsError MessagePackFrameScanner :=
  if (count : Int) > (maxFrameBytes : Int) - s.frameBytes then frameTooLarge maxFrameBytes
  else .ok { s with frameBytes := s.frameBytes + count }

def ensureMinimumRemaining (s : MessagePackFrameScanner) (additionalBytes : Nat) :
    Except JsError Unit :=
  let capacity : Int := (maxFrameBytes : Int) - s.frameBytes
  if (additionalBytes : Int) > capacity ∨
      (s.remainingValues : Int) > capacity - additionalBytes then
    frameTooLarge maxFrameBytes
  else .ok ()

def addChildren (s : MessagePackFrameScanner) (count : Nat) :
    Except JsError MessagePackFrameScanner :=
  if (JsNumber.integer count).isSafeInteger = false ∨ (count : Int) < 0 ∨
      (count : Int) > (maxSafeInteger : Int) - s.remainingValues then
    invalidInput
  else do
    let s := { s with remainingValues := s.remainingValues + count }
    s.ensureMinimumRemaining maxFrameBytes 0
    return s

def setPayload (s : MessagePackFrameScanner) (length : Nat) :
    Except JsError MessagePackFrameScanner :=
  if (JsNumber.integer length).isSafeInteger = false ∨ (length : Int) < 0 then invalidInput
  else do
    s.ensureMinimumRemaining maxFrameBytes length
    return { s with payloadBytes := length }

def setExtensionPayload (s : MessagePackFrameScanner) (length : Nat) :
    Except JsError MessagePackFrameScanner := do
  let s ← s.setPayload maxFrameBytes (length + 1)
  return { s with extensionTypePending := true }

def applyLength (s : MessagePackFrameScanner) (kind : LengthKind) (value : Nat) :
    Except JsError MessagePackFrameScanner :=
  match kind with
  | .array => s.addChildren maxFrameBytes value
  | .map => s.addChildren maxFrameBytes (value * 2)
  | .payload => do
    let s ← s.setPayload maxFrameBytes value
    return { s with extensionTypePending := false }
  | .extension => do
    let s ← s.setPayload maxFrameBytes (value + 1)
    return { s with extensionTypePending := true }

def readToken (s : MessagePackFrameScanner) (token : UInt8) :
    Except JsError MessagePackFrameScanner :=
  let n := token.toNat
  if n ≤ 0x7f ∨ n ≥ 0xe0 ∨ (n ≥ 0xc0 ∧ n ≤ 0xc3) then
    if n = 0xc1 then invalidInput else .ok s
  else if n ≥ 0x80 ∧ n ≤ 0x8f then s.addChildren maxFrameBytes ((token &&& 0x0f).toNat * 2)
  else if n ≥ 0x90 ∧ n ≤ 0x9f then s.addChildren maxFrameBytes (token &&& 0x0f).toNat
  else if n ≥ 0xa0 ∧ n ≤ 0xbf then s.setPayload maxFrameBytes (token &&& 0x1f).toNat
  else
    match n with
    | 0xc4 => .ok (s.readLength .payload 1)
    | 0xc5 => .ok (s.readLength .payload 2)
    | 0xc6 => .ok (s.readLength .payload 4)
    | 0xc7 => .ok (s.readLength .extension 1)
    | 0xc8 => .ok (s.readLength .extension 2)
    | 0xc9 => .ok (s.readLength .extension 4)
    | 0xca => s.setPayload maxFrameBytes 4
    | 0xcb => s.setPayload maxFrameBytes 8
    | 0xcc | 0xd0 => s.setPayload maxFrameBytes 1
    | 0xcd | 0xd1 => s.setPayload maxFrameBytes 2
    | 0xce | 0xd2 => s.setPayload maxFrameBytes 4
    | 0xcf | 0xd3 => s.setPayload maxFrameBytes 8
    | 0xd4 => s.setExtensionPayload maxFrameBytes 1
    | 0xd5 => s.setExtensionPayload maxFrameBytes 2
    | 0xd6 => s.setExtensionPayload maxFrameBytes 4
    | 0xd7 => s.setExtensionPayload maxFrameBytes 8
    | 0xd8 => s.setExtensionPayload maxFrameBytes 16
    | 0xd9 => .ok (s.readLength .payload 1)
    | 0xda => .ok (s.readLength .payload 2)
    | 0xdb => .ok (s.readLength .payload 4)
    | 0xdc => .ok (s.readLength .array 2)
    | 0xdd => .ok (s.readLength .array 4)
    | 0xde => .ok (s.readLength .map 2)
    | 0xdf => .ok (s.readLength .map 4)
    | _ => invalidInput

/-- The boundaries that the source pushes are the outputs. -/
def completeIfReady (s : ScanState) : Emit Nat JsError ScanState :=
  let scanner := s.scanner
  if scanner.pending.isSome ∨ scanner.payloadBytes > 0 ∨ scanner.remainingValues ≠ 0 then pure s
  else if scanner.frames + 1 > maxFrames then
    Emit.fail (plainError s!"[PipeX] Frame count exceeds {maxFrames}")
  else do
    Emit.push s.offset
    return { s with scanner :=
      { scanner with
        frames := scanner.frames + 1
        frameBytes := 0
        remainingValues := 1
        extensionTypePending := false } }

/-- The pass that reads the type byte of an extension. -/
def extensionTypePass (s : ScanState) (extensionType : UInt8) : Emit Nat JsError ScanState := do
  let scanner ← s.scanner.consumeBytes maxFrameBytes 1
  let scanner := { scanner with
    payloadBytes := scanner.payloadBytes - 1
    extensionTypePending := false }
  let scanner ←
    if extensionType = 0x65 ∨ extensionType = 0x73 ∨ extensionType = 0x78 then do
      let scanner ← scanner.addChildren maxFrameBytes 1
      scanner.ensureMinimumRemaining maxFrameBytes scanner.payloadBytes
      pure scanner
    else if extensionType ≠ 0x00 ∧ extensionType ≠ 0x42 ∧ extensionType ≠ 0x74 ∧
        extensionType ≠ 0xff then
      (invalidInput : Except JsError MessagePackFrameScanner)
    else
      pure scanner
  let s : ScanState := ⟨scanner, s.offset + 1⟩
  if scanner.payloadBytes = 0 then completeIfReady maxFrames s else pure s

/-- The pass that skips payload bytes, `consumed` of them. -/
def payloadPass (s : ScanState) (consumed : Nat) : Emit Nat JsError ScanState := do
  let scanner ← s.scanner.consumeBytes maxFrameBytes consumed
  let scanner := { scanner with payloadBytes := scanner.payloadBytes - consumed }
  let s : ScanState := ⟨scanner, s.offset + consumed⟩
  if scanner.payloadBytes > 0 ∧ scanner.frameBytes = maxFrameBytes then
    Emit.ofExcept (frameTooLarge maxFrameBytes)
  else if scanner.payloadBytes = 0 then completeIfReady maxFrames s
  else pure s

/-- The pass that reads a byte of a length field. -/
def pendingPass (s : ScanState) (pending : PendingLength) (byte : UInt8) :
    Emit Nat JsError ScanState := do
  let scanner ← s.scanner.consumeBytes maxFrameBytes 1
  let pending := { pending with value := pending.value * 256 + byte.toNat, read := pending.read + 1 }
  if pending.read = pending.bytes then
    let scanner ← { scanner with pending := none }.applyLength maxFrameBytes pending.kind
      pending.value
    completeIfReady maxFrames ⟨scanner, s.offset + 1⟩
  else
    pure ⟨{ scanner with pending := some pending }, s.offset + 1⟩

/-- The pass that reads the first byte of a value. -/
def tokenPass (s : ScanState) (token : UInt8) : Emit Nat JsError ScanState := do
  let scanner ← s.scanner.consumeBytes maxFrameBytes 1
  -- `--remainingValues < 0`
  if scanner.remainingValues = 0 then
    Emit.ofExcept invalidInput
  let scanner ← { scanner with remainingValues := scanner.remainingValues - 1 }.readToken
    maxFrameBytes token
  completeIfReady maxFrames ⟨scanner, s.offset + 1⟩

/-- One pass of the `while` loop. -/
def scanPass (s : ScanState) (input : Bytes) : Emit Nat JsError (Progress ScanState UInt8) :=
  match input with
  | [] => pure (.more s)
  | byte :: rest =>
    if s.scanner.payloadBytes > 0 then
      if s.scanner.extensionTypePending then
        extensionTypePass maxFrameBytes maxFrames s byte >>= fun s => pure (.done s rest)
      else
        let consumed := min s.scanner.payloadBytes input.length
        payloadPass maxFrameBytes maxFrames s consumed >>= fun s' =>
          -- with payload left over the chunk is used up
          if s.scanner.payloadBytes > input.length then pure (.more s')
          else pure (.done s' (input.drop consumed))
    else
      match s.scanner.pending with
      | some pending =>
        pendingPass maxFrameBytes maxFrames s pending byte >>= fun s => pure (.done s rest)
      | none => tokenPass maxFrameBytes maxFrames s byte >>= fun s => pure (.done s rest)

/-- The `while` loop of `scan`. -/
def scanLoop : InputLoop ScanState UInt8 Nat JsError where
  body := scanPass maxFrameBytes maxFrames
  consumes := by
    intro s x xs s' rest h
    simp only [scanPass] at h
    split at h
    · split at h
      · obtain ⟨_, -, h, -⟩ := Emit.bind_eq_ok h
        cases h
        exact Nat.le_refl _
      · obtain ⟨_, -, h, -⟩ := Emit.bind_eq_ok h
        split at h
        · cases h
        · cases h
          simp only [List.length_drop, List.length_cons]
          omega
    · split at h
      all_goals
        obtain ⟨_, -, h, -⟩ := Emit.bind_eq_ok h
        cases h
        exact Nat.le_refl _

/-- `scan(chunk)`: the scanner behind the chunk and the boundaries in it. -/
def scan (s : MessagePackFrameScanner) (chunk : Bytes) :
    Except JsError (MessagePackFrameScanner × List Nat) :=
  let loop := (scanLoop maxFrameBytes maxFrames).run ⟨s, 0⟩ chunk
  loop.result.map fun s => (s.scanner, loop.out)

end MessagePackFrameScanner

def assertMessagePackFrameLimits (input : Bytes) (maxFrameBytes maxFrames : Nat) :
    Except JsError Nat := do
  let (scanner, boundaries) ← MessagePackFrameScanner.new.scan maxFrameBytes maxFrames input
  scanner.finish
  return boundaries.length

end PipeX.FrameLimits
