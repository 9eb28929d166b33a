/-
  PipeX.Core.Validation

  `ValidationPlugin` of `src/core/validation.ts`.

  Its stream keeps what it is handed and validates all of it at the end;
  `createStream_delivers` says that no cut of the input changes the verdict.
-/
import PipeX.Core.Controllers.PathInversion

namespace PipeX

open Chunked Outcomes FrameLimits

/-- `new ValidationError({ transformName: 'validation' })`. -/
def validationError : JsError :=
  ⟨"ValidationError", some "VALIDATION_FAILED", "[PipeX] Validation failed"⟩

/-- `ValidationOptions`; an omitted `validateOnReverse` is `false`. -/
structure ValidationPlugin (Obj : Type) where
  /-- `schema.safeParse(decoded).success`, unless it throws -/
  schema : Value Obj → Except JsError Bool
  validateOnReverse : Bool

namespace ValidationPlugin

variable {Obj : Type} (plugin : ValidationPlugin Obj) (host : Host Obj) (limits : Option EngineLimits)

/-- `Math.min(pluginInputLimit(ctx), pluginOutputLimit(ctx))`. -/
def maxBytes : Nat := min (pluginInputLimit limits) (pluginOutputLimit limits)

/-- `ctx.limits?.maxFrameBytes`, or the default of `validate`. -/
def maxFrameBytes : Nat := (limits.map (·.maxFrameBytes)).getD defaultLimits.maxFrameBytes

def validate (data : Bytes) : Except JsError Unit := do
  if data.length > maxBytes limits then
    throw validationError
  let _ ← assertMessagePackFrameLimits data (maxFrameBytes limits) 1
  match host.unpack data with
  | none => throw validationError
  | some decoded =>
    let success ← plugin.schema decoded
    if success = false then
      throw validationError

/-- `process(data, ctx)`. -/
def process (data : Bytes) : Except JsError Bytes := do
  plugin.validate host limits data
  return data

/-- `reverse(data, ctx)`. -/
def reverse (data : Bytes) : Except JsError Bytes := do
  if data.length > maxBytes limits then
    throw validationError
  if plugin.validateOnReverse then
    plugin.validate host limits data
  return data

/-! ## The stream -/

/-- `chunks` and `total`. -/
structure StreamState where
  chunks : List Bytes
  total : Nat

/-- `createStream(mode, context)`. -/
def machine (mode : StreamMode) : Transform StreamState Bytes Bytes JsError where
  transform s chunk :=
    if chunk.length > maxBytes limits - s.total then
      Emit.fail validationError
    else
      return ⟨s.chunks ++ [chunk], s.total + chunk.length⟩
  flush s := do
    let data := bufferConcat s.chunks s.total
    if mode ≠ .decompress ∨ plugin.validateOnReverse then
      plugin.validate host limits data
    Emit.push data

def createStream (mode : StreamMode) : Stage UInt8 JsError :=
  (plugin.machine host limits mode).complete ⟨[], 0⟩

/-- `process` or `reverse`, by the mode. -/
def whole (mode : StreamMode) (data : Bytes) : Except JsError Bytes :=
  match mode with
  | .compress => plugin.process host limits data
  | .decompress => plugin.reverse host limits data

/-- Chunks are kept as long as their total is within the limit. -/
theorem machine_feed (mode : StreamMode) {s : StreamState} (hs : s.total ≤ maxBytes limits)
    (chunks : List Bytes) :
    (plugin.machine host limits mode).feed s chunks =
      if s.total + chunks.flatten.length ≤ maxBytes limits then
        pure ⟨s.chunks ++ chunks, s.total + chunks.flatten.length⟩
      else
        Emit.fail validationError := by
  induction chunks generalizing s with
  | nil =>
    rw [List.flatten_nil, List.append_nil, if_pos (by simpa using hs)]
    rfl
  | cons chunk chunks ih =>
    rw [Transform.feed_cons, List.flatten_cons, List.length_append, ← Nat.add_assoc]
    by_cases hin : chunk.length > maxBytes limits - s.total
    · have hchunk : (plugin.machine host limits mode).transform s chunk = Emit.fail validationError :=
        if_pos hin
      rw [hchunk, Emit.fail_bind, if_neg (by omega)]
    · have hchunk : (plugin.machine host limits mode).transform s chunk =
          pure ⟨s.chunks ++ [chunk], s.total + chunk.length⟩ := if_neg hin
      have hle : s.total + chunk.length ≤ maxBytes limits := by omega
      rw [hchunk, Emit.pure_bind', ih (s := ⟨s.chunks ++ [chunk], s.total + chunk.length⟩) hle,
        List.append_assoc, List.singleton_append]

/-- Data that is too long is refused in either direction. -/
theorem whole_exceeds (mode : StreamMode) {data : Bytes} (h : maxBytes limits < data.length) :
    plugin.whole host limits mode data = .error validationError := by
  have hlong : data.length > maxBytes limits := h
  cases mode with
  | compress => simp only [whole, process, validate, if_pos hlong]; rfl
  | decompress => simp only [whole, reverse, if_pos hlong]; rfl

/-- The check at the end is the one of the direction. -/
theorem flush_eq (mode : StreamMode) {chunks : List Bytes}
    (h : chunks.flatten.length ≤ maxBytes limits) :
    (plugin.machine host limits mode).flush ⟨chunks, chunks.flatten.length⟩ =
      Emit.ofExcept (plugin.whole host limits mode chunks.flatten) >>= Emit.push := by
  have hfits : ¬ chunks.flatten.length > maxBytes limits := Nat.not_lt_of_le h
  simp only [machine, bufferConcat_eq_flatten rfl]
  cases mode with
  | compress =>
    rw [if_pos (.inl (by decide))]
    simp only [whole, process]
    cases plugin.validate host limits chunks.flatten <;> rfl
  | decompress =>
    simp only [whole, reverse, if_neg hfits]
    cases plugin.validateOnReverse with
    | false => rfl
    | true =>
      rw [if_pos (.inr rfl), if_pos rfl]
      cases plugin.validate host limits chunks.flatten <;> rfl

/-- However the input is cut, the stream does what the buffer method of its direction
    does. -/
theorem createStream_computes (mode : StreamMode) :
    (plugin.createStream host limits mode).Computes (plugin.whole host limits mode) := by
  intro chunks
  rw [createStream, Transform.complete, machine_feed plugin host limits mode (Nat.zero_le _)]
  by_cases hin : 0 + chunks.flatten.length ≤ maxBytes limits
  · rw [if_pos hin, Emit.pure_bind']
    rw [Nat.zero_add] at hin ⊢
    rw [List.nil_append, flush_eq plugin host limits mode hin]
    exact Emit.delivers_push _
  · rw [if_neg hin, Emit.fail_bind, whole_exceeds plugin host limits mode (by omega)]
    exact Emit.delivers_error (Emit.not_succeeds_fail _) _

/-! ## What passes -/

/-- In either direction the data comes out as it went in. -/
theorem whole_ok {mode : StreamMode} {data out : Bytes}
    (h : plugin.whole host limits mode data = .ok out) : out = data := by
  cases mode with
  | compress =>
    obtain ⟨-, -, h⟩ := bind_ok h
    exact (Except.ok.inj h).symm
  | decompress =>
    obtain ⟨-, h⟩ := guard_ok h
    exact (Except.ok.inj (check_ok h)).symm

theorem process_eq_ok {data out : Bytes} :
    plugin.process host limits data = .ok out ↔
      plugin.validate host limits data = .ok () ∧ out = data := by
  simp only [process]
  cases plugin.validate host limits data with
  | error e => exact iff_of_false (fun h => nomatch h) (fun h => nomatch h.1)
  | ok u => exact ⟨fun h => ⟨rfl, (Except.ok.inj h).symm⟩, fun h => congrArg Except.ok h.2.symm⟩

theorem reverse_of_ok {data : Bytes} (hle : data.length ≤ maxBytes limits)
    (hvalid : plugin.validateOnReverse = true → plugin.validate host limits data = .ok ()) :
    plugin.reverse host limits data = .ok data := by
  have hfits : ¬ data.length > maxBytes limits := Nat.not_lt_of_le hle
  simp only [reverse, if_neg hfits]
  cases hmode : plugin.validateOnReverse with
  | false => rfl
  | true =>
    rw [if_pos rfl, hvalid hmode]
    rfl

/-- What a validation has let pass: msgpackr has decoded a value from all of it, and
    the schema has taken that value. -/
structure Accepted (data : Bytes) : Prop where
  length_le : data.length ≤ maxBytes limits
  frame : ∃ n, assertMessagePackFrameLimits data (maxFrameBytes limits) 1 = .ok n
  decoded : ∃ value, host.unpack data = some value ∧ plugin.schema value = .ok true

theorem validate_eq_ok {data : Bytes} :
    plugin.validate host limits data = .ok () ↔ plugin.Accepted host limits data := by
  constructor
  · intro h
    obtain ⟨hlong, h⟩ := guard_ok h
    obtain ⟨n, hframe, h⟩ := bind_ok h
    refine ⟨Nat.le_of_not_lt hlong, ⟨n, hframe⟩, ?_⟩
    cases hunpack : host.unpack data with
    | none =>
      rw [hunpack] at h
      cases h
    | some value =>
      rw [hunpack] at h
      obtain ⟨success, hschema, h⟩ := bind_ok h
      cases success with
      | false => cases h
      | true => exact ⟨value, rfl, hschema⟩
  · rintro ⟨hle, ⟨n, hframe⟩, value, hunpack, hschema⟩
    have hfits : ¬ data.length > maxBytes limits := Nat.not_lt_of_le hle
    simp only [validate, if_neg hfits, hframe, hunpack, hschema]
    rfl

/-- In either direction the stream goes through exactly where the buffer method
    returns, however its input is cut, and it delivers its input; forth, and back where
    the option asks for it, it goes through exactly for what is accepted. -/
theorem stream_validates (mode : StreamMode) (chunks : List Bytes) :
    (plugin.createStream host limits mode chunks).Delivers
        (plugin.whole host limits mode chunks.flatten) ∧
      ((plugin.createStream host limits mode chunks).Succeeds →
        (plugin.createStream host limits mode chunks).out.flatten = chunks.flatten) ∧
      (mode = .compress ∨ plugin.validateOnReverse = true →
        ((plugin.createStream host limits mode chunks).Succeeds ↔
          plugin.Accepted host limits chunks.flatten)) := by
  have hdelivers := plugin.createStream_computes host limits mode chunks
  refine ⟨hdelivers, fun hsucc => ?_, fun hvalidates => ?_⟩
  · obtain ⟨all, hall⟩ := hdelivers.1.mp hsucc
    rw [hdelivers.2 all hall, plugin.whole_ok host limits hall]
  · rw [hdelivers.1, ← validate_eq_ok]
    constructor
    · rintro ⟨all, hall⟩
      cases mode with
      | compress => exact ((plugin.process_eq_ok host limits).mp hall).1
      | decompress =>
        obtain ⟨-, h⟩ := guard_ok hall
        rw [if_pos (hvalidates.resolve_left (by decide))] at h
        obtain ⟨u, hvalid, -⟩ := bind_ok h
        exact hvalid
    · intro hvalid
      cases mode with
      | compress => exact ⟨_, (plugin.process_eq_ok host limits).mpr ⟨hvalid, rfl⟩⟩
      | decompress =>
        exact ⟨_, plugin.reverse_of_ok host limits
          ((plugin.validate_eq_ok host limits).mp hvalid).length_le fun _ => hvalid⟩

end ValidationPlugin
end PipeX
