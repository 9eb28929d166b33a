/-
  PipeX.Core.Plugin

  Plugins as `DataEngine.use` sees them, and `getPluginCapabilities` of
  `src/core/core.ts`.
-/
import PipeX.Core.Errors
import Mathlib.Data.Nat.Basic

namespace PipeX

/-- A property that holds a boolean if it is declared. -/
inductive Declared where
  | undefined
  | boolean (value : Bool)
  | other
deriving DecidableEq, Repr

/-- What stands under `plugin.reverse`; `inherited` is `BasePlugin.prototype.reverse`,
    which throws. -/
inductive ReverseImplementation where
  | missing
  | inherited
  | own
deriving DecidableEq, Repr

/-- `ProcessorPlugin`, without its code. -/
structure ProcessorPlugin where
  name : String
  version : String
  reversible : Declared
  streaming : Declared
  reverse : ReverseImplementation
  /-- `typeof plugin.createStream === 'function'` -/
  createStream : Bool
deriving DecidableEq, Repr

/-- `${plugin.name}@${plugin.version}`. -/
def ProcessorPlugin.id (plugin : ProcessorPlugin) : String := s!"{plugin.name}@{plugin.version}"

/-! ## Capabilities -/

inductive InvalidPluginCapabilityIssue where
  | mustBeBoolean
  | missingImplementation
  | conflictingImplementation
deriving DecidableEq, Repr

def InvalidPluginCapabilityIssue.details : InvalidPluginCapabilityIssue → String
  | .mustBeBoolean => "must be a boolean when declared"
  | .missingImplementation => "is declared but its implementation is missing"
  | .conflictingImplementation => "is disabled but its implementation is present"

/-- `new InvalidPluginCapabilityError(plugin, capability, issue)`. -/
def invalidPluginCapabilityError (plugin capability : String) (issue : InvalidPluginCapabilityIssue) :
    JsError :=
  ⟨"InvalidPluginCapabilityError", some "INVALID_PLUGIN_CAPABILITY",
    s!"[PipeX] Plugin {plugin} has an invalid {capability} capability: {issue.details}"⟩

inductive PluginStreamMode where
  | native
  | fallback
  | none
deriving DecidableEq, Repr

structure PluginCapabilities where
  process : Bool
  reverse : Bool
  streaming : Bool
  streamMode : PluginStreamMode
deriving DecidableEq, Repr

def getPluginCapabilities (plugin : ProcessorPlugin) : Except JsError PluginCapabilities := do
  let hasReverseImplementation := decide (plugin.reverse = .own)
  if plugin.reversible = .other then
    throw (invalidPluginCapabilityError plugin.id "reversible" .mustBeBoolean)
  if plugin.streaming = .other then
    throw (invalidPluginCapabilityError plugin.id "streaming" .mustBeBoolean)
  if plugin.reversible = .boolean true ∧ hasReverseImplementation = false then
    throw (invalidPluginCapabilityError plugin.id "reversible" .missingImplementation)
  if plugin.streaming = .boolean false ∧ plugin.createStream then
    throw (invalidPluginCapabilityError plugin.id "streaming" .conflictingImplementation)
  let canReverse := decide (plugin.reversible ≠ .boolean false) && hasReverseImplementation
  let canStream := decide (plugin.streaming ≠ .boolean false)
  return {
    process := true
    reverse := canReverse
    streaming := canStream
    streamMode := if canStream then (if plugin.createStream then .native else .fallback) else .none }

/-- A declared capability is the one the plugin gets, and a plugin streams natively
    exactly if it creates streams. -/
theorem getPluginCapabilities_declared {plugin : ProcessorPlugin} {c : PluginCapabilities}
    (h : getPluginCapabilities plugin = .ok c) :
    (∀ b, plugin.reversible = .boolean b → c.reverse = b) ∧
      (∀ b, plugin.streaming = .boolean b → c.streaming = b) ∧
      (c.streamMode = .native ↔ plugin.createStream = true) := by
  simp only [getPluginCapabilities, bind, Except.bind, pure, Except.pure, throw, throwThe,
    MonadExceptOf.throw] at h
  split at h
  · cases h
  split at h
  · cases h
  split at h
  · cases h
  rename_i hreverse
  split at h
  · cases h
  rename_i hstream
  cases h
  refine ⟨?_, ?_, ?_⟩
  · intro b hb
    cases b with
    | false => simp [hb]
    | true => simpa [hb] using hreverse
  · intro b hb
    cases b with
    | false => simp [hb]
    | true => simp [hb]
  · by_cases hfalse : plugin.streaming = .boolean false
    · have hnone : plugin.createStream = false := by simpa [hfalse] using hstream
      simp [hfalse, hnone]
    · cases hcreate : plugin.createStream <;> simp [hfalse]

/-- The first argument of `createStream`. -/
inductive StreamMode where
  | compress
  | decompress
deriving DecidableEq, Repr

/-! ## What a pipeline supports -/

/-- `supportsOperation(plugin, 'reverse')`. -/
def supportsReverse (plugin : ProcessorPlugin) : Except JsError Bool :=
  (getPluginCapabilities plugin).map (·.reverse)

/-- `supportsOperation(plugin, 'stream')`. -/
def supportsStream (plugin : ProcessorPlugin) : Except JsError Bool :=
  (getPluginCapabilities plugin).map (·.streaming)

/-- The first plugin without the capability is refused by name. -/
def assertPipeline (supports : ProcessorPlugin → Except JsError Bool)
    (unsupported : String → JsError) : List ProcessorPlugin → Except JsError Unit
  | [] => .ok ()
  | plugin :: plugins => do
    if (← supports plugin) = false then
      throw (unsupported plugin.id)
    assertPipeline supports unsupported plugins

def assertReversiblePipeline : List ProcessorPlugin → Except JsError Unit :=
  assertPipeline supportsReverse unsupportedReverseError

def assertStreamingPipeline : List ProcessorPlugin → Except JsError Unit :=
  assertPipeline supportsStream unsupportedStreamingError

/-- An accepted plugin that creates streams supports them. -/
theorem supportsStream_of_createStream {plugin : ProcessorPlugin} {c : PluginCapabilities}
    (h : getPluginCapabilities plugin = .ok c) (hcreate : plugin.createStream = true) :
    supportsStream plugin = .ok true := by
  have hstreaming : c.streaming = true := by
    simp only [getPluginCapabilities, bind, Except.bind, pure, Except.pure, throw, throwThe,
      MonadExceptOf.throw] at h
    split at h
    · cases h
    split at h
    · cases h
    split at h
    · cases h
    split at h
    · cases h
    rename_i hconflict
    cases h
    exact decide_eq_true fun hfalse => hconflict ⟨hfalse, hcreate⟩
  simp [supportsStream, h, Except.map, hstreaming]

/-- A pipeline passes exactly if each of its plugins has the capability. -/
theorem assertPipeline_ok_iff {supports : ProcessorPlugin → Except JsError Bool}
    {unsupported : String → JsError} {plugins : List ProcessorPlugin} :
    assertPipeline supports unsupported plugins = .ok () ↔
      ∀ plugin ∈ plugins, supports plugin = .ok true := by
  induction plugins with
  | nil => simp [assertPipeline]
  | cons plugin plugins ih =>
    rw [List.forall_mem_cons, ← ih]
    cases hsupports : supports plugin with
    | error e =>
      simp [assertPipeline, hsupports, bind, Except.bind]
    | ok b =>
      cases b with
      | false =>
        simp [assertPipeline, hsupports, bind, Except.bind, throw, throwThe, MonadExceptOf.throw]
      | true =>
        simp [assertPipeline, hsupports, bind, Except.bind]

end PipeX
