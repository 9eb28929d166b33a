/-
  PipeX.Core.TransformChain

  `buildTransformChain` of `src/core/core.ts`: the plugins of a pipeline as stages
  in a row.

  * `buildTransformChain_realizes` — plugins that stream as they process make a
    row that computes what calling them one after another computes.
-/
import PipeX.Core.Controllers.Operation
import PipeX.Core.Transforms
import PipeX.Lib.Outcome

namespace PipeX

open Chunked Outcomes

/-! ## The stages of a plugin -/

/-- `reverse ? plugin.reverse : plugin.process`. -/
def Plugin.function (plugin : Plugin) (reverse : Bool) : PluginFunction :=
  if reverse then plugin.reverse else plugin.process

/-- `reverse ? 'decompress' : 'compress'`. -/
def streamMode (reverse : Bool) : StreamMode := if reverse then .decompress else .compress

/-- `buildFallbackTransform(plugin, reverse, ..)`: a call of the plugin for each
    chunk.  A chunk that fails may be diverted to the dead letter queue; the stage
    fails all the same. -/
def buildFallbackTransform (plugin : Plugin) (reverse : Bool) (context : StreamPluginContext) :
    Transform Unit Bytes Bytes JsError where
  transform _ chunk := do
    let ctx : ProcessorContext := ⟨context.requestId, none, context.limits⟩
    if reverse then
      if (← supportsReverse plugin.declaration) = false then
        Emit.fail (unsupportedReverseError plugin.declaration.id)
    let fn := plugin.function reverse
    let returned ← withRetry (fun attempt => fn ctx attempt chunk) plugin.retryOptions context.limits
    match returned with
    | none =>
      Emit.fail (plainError s!"[PipeX] Plugin output exceeds {context.limits.maxOutputBytes} bytes")
    | some out =>
      if out.length > context.limits.maxOutputBytes then
        Emit.fail (plainError s!"[PipeX] Plugin output exceeds {context.limits.maxOutputBytes} bytes")
      else
        Emit.push out
  flush _ := pure ()

/-- The stage behind a native stream; it reports progress and passes everything on. -/
def observe : Transform Unit Bytes Bytes JsError where
  transform _ chunk := Emit.push chunk
  flush _ := pure ()

/-- What `buildTransformChain` makes of the plugin at `index`. -/
def pluginStages (mode : StreamMode) (reverse : Bool) (context : StreamPluginContext)
    (plugin : Plugin) (index : Nat) : List (Stage UInt8 JsError) :=
  let limit := (buildByteLimitTransform context.limits.maxOutputBytes
    s!"output after plugin {plugin.declaration.name}#{index}").complete 0
  if plugin.declaration.createStream then
    [plugin.createStream mode context, observe.complete (), limit]
  else
    [(buildFallbackTransform plugin reverse context).complete (), limit]

def buildTransformChain (plugins : List Plugin) (mode : StreamMode) (reverse : Bool)
    (context : StreamPluginContext) : Except JsError (List (Stage UInt8 JsError)) := do
  assertStreamingPipeline (plugins.map Plugin.declaration)
  if reverse then
    assertReversiblePipeline (plugins.map Plugin.declaration)
  let ordered := if reverse then plugins.reverse else plugins
  return ordered.zipIdx.flatMap fun (plugin, index) =>
    pluginStages mode reverse context plugin index

/-! ## Plugins that stream as they process -/

/-- A value that is no buffer is a failure. -/
def returned : Except JsError (Option Bytes) → Except JsError Bytes
  | .ok (some output) => .ok output
  | .ok none => .error (plainError "[PipeX] Plugin output exceeds configured limit")
  | .error error => .error error

/-- The plugin creates streams, and under these limits they do to the whole of their
    input what `process` and `reverse` do to a buffer, whatever the attempts. -/
structure Plugin.StreamsNatively (plugin : Plugin) (limits : EngineLimits) : Prop where
  createStream : plugin.declaration.createStream = true
  computes : ∀ (reverse : Bool) (context : StreamPluginContext) (ctx : ProcessorContext)
    (attempt : Nat), context.limits = limits → ctx.limits = limits →
      (plugin.createStream (streamMode reverse) context).Computes fun data =>
        returned (plugin.function reverse ctx attempt data)

theorem observe_feed (chunks : List Bytes) : observe.feed () chunks = ⟨chunks, .ok ()⟩ := by
  induction chunks with
  | nil => rfl
  | cons chunk chunks ih =>
    rw [Transform.feed_cons, show observe.transform () chunk = Emit.push chunk from rfl,
      Emit.bind_ok rfl, ih]
    rfl

theorem observe_computes : Stage.Computes (observe.complete ()) pure := by
  intro chunks
  have hrun : observe.complete () chunks = ⟨chunks, .ok ()⟩ := by
    rw [Transform.complete, observe_feed, Emit.bind_ok rfl]
    show (⟨chunks ++ [], _⟩ : Emit Bytes JsError Unit) = _
    rw [List.append_nil]
    rfl
  rw [hrun]
  exact Emit.delivers_ok rfl rfl

theorem returned_ok {value : Except JsError (Option Bytes)} {output : Bytes}
    (h : returned value = .ok output) : value = .ok (some output) := by
  match value, h with
  | .ok (some _), h =>
    cases h
    rfl

/-- Such a plugin, called on a buffer: one call, and the output limit. -/
theorem Plugin.StreamsNatively.agrees {plugin : Plugin} {ctx : ProcessorContext}
    (h : plugin.StreamsNatively ctx.limits) {context : StreamPluginContext}
    (hlimits : context.limits = ctx.limits)
    (hretry : checkRetryOptions plugin.retryOptions ctx.limits = .ok ()) (reverse : Bool)
    (label : String) (data : Bytes) :
    Agree (returned (plugin.function reverse ctx 0 data) >>= limitBytes ctx.limits.maxOutputBytes label)
      (callPlugin ctx plugin (plugin.function reverse) data) := by
  cases hfirst : returned (plugin.function reverse ctx 0 data) with
  | error e =>
    cases hcall : callPlugin ctx plugin (plugin.function reverse) data with
    | error e' => exact True.intro
    | ok output =>
      -- an attempt that succeeds would have to agree with the first
      obtain ⟨-, -, attempt, hattempt⟩ := callPlugin_ok hcall
      have hagree := delivers_agree (h.computes reverse context ctx 0 hlimits rfl [data])
        (h.computes reverse context ctx attempt hlimits rfl [data])
      simp only [List.flatten_singleton, hfirst, hattempt] at hagree
      exact absurd hagree id
  | ok output =>
    rw [callPlugin_first hretry (returned_ok hfirst)]
    show Agree (limitBytes ctx.limits.maxOutputBytes label output) _
    by_cases hlen : output.length > ctx.limits.maxOutputBytes
    · rw [limitBytes_exceeds hlen, if_pos hlen]
      exact True.intro
    · rw [limitBytes_fits hlen, if_neg hlen]

theorem Plugin.StreamsNatively.realizes {plugin : Plugin} {ctx : ProcessorContext}
    (h : plugin.StreamsNatively ctx.limits) {context : StreamPluginContext}
    (hlimits : context.limits = ctx.limits)
    (hretry : checkRetryOptions plugin.retryOptions ctx.limits = .ok ()) (reverse : Bool)
    (index : Nat) :
    Realizes (pluginStages (streamMode reverse) reverse context plugin index)
      (callPlugin ctx plugin (plugin.function reverse)) := by
  rw [pluginStages, if_pos h.createStream, hlimits]
  have hstream := (h.computes reverse context ctx 0 hlimits rfl).realizes
  have hbehind := realizes_append observe_computes.realizes
    (byteLimit_computes ctx.limits.maxOutputBytes
      s!"output after plugin {plugin.declaration.name}#{index}").realizes
  refine realizes_congr (realizes_append hstream hbehind) fun data => ?_
  exact h.agrees hlimits hretry reverse _ data

/-! ## The chain -/

/-- The index of a plugin stands in a message only. -/
theorem foldlM_zipIdx {α β ε : Type} (f : α → β → Except ε β) (items : List α) (b : β) :
    items.zipIdx.foldlM (fun b item => f item.1 b) b = items.foldlM (fun b item => f item b) b := by
  have hmap : (items.zipIdx.map Prod.fst).foldlM (fun b item => f item b) b =
      items.zipIdx.foldlM (fun b item => f item.1 b) b := List.foldlM_map
  rw [← hmap, List.zipIdx_map_fst]

/-- The chain over plugins that stream as they process computes what calling them
    one after another computes. -/
theorem buildTransformChain_realizes {plugins : List Plugin} {reverse : Bool}
    {ctx : ProcessorContext} {context : StreamPluginContext} (hlimits : context.limits = ctx.limits)
    (haccepted : ∀ plugin ∈ plugins, ∃ c, getPluginCapabilities plugin.declaration = .ok c)
    (hnative : ∀ plugin ∈ plugins, plugin.StreamsNatively ctx.limits)
    (hretry : ∀ plugin ∈ plugins, checkRetryOptions plugin.retryOptions ctx.limits = .ok ())
    (hreverse : reverse = true → ∀ plugin ∈ plugins, supportsReverse plugin.declaration = .ok true) :
    ∃ stages, buildTransformChain plugins (streamMode reverse) reverse context = .ok stages ∧
      Realizes stages fun data => (if reverse then plugins.reverse else plugins).foldlM
        (fun data plugin => callPlugin ctx plugin (plugin.function reverse) data) data := by
  have hstreaming : assertStreamingPipeline (plugins.map Plugin.declaration) = .ok () := by
    apply assertPipeline_declarations
    intro plugin hplugin
    obtain ⟨c, hc⟩ := haccepted plugin hplugin
    exact supportsStream_of_createStream hc (hnative plugin hplugin).createStream
  have hordered : ∀ plugin, plugin ∈ (if reverse then plugins.reverse else plugins) →
      plugin ∈ plugins := by
    intro plugin hplugin
    cases reverse with
    | false => exact hplugin
    | true => exact List.mem_reverse.mp hplugin
  refine ⟨(if reverse then plugins.reverse else plugins).zipIdx.flatMap fun item =>
    pluginStages (streamMode reverse) reverse context item.1 item.2, ?_, ?_⟩
  -- the two checks pass
  · cases reverse with
    | false =>
      simp only [buildTransformChain, hstreaming]
      rfl
    | true =>
      have hreversible : assertReversiblePipeline (plugins.map Plugin.declaration) = .ok () :=
        assertPipeline_declarations (hreverse rfl)
      simp only [buildTransformChain, hstreaming, hreversible]
      rfl
  -- plugin by plugin, in the order of the chain
  · have hrow := @realizes_flatMap UInt8 (Plugin × Nat) JsError
      (fun item => pluginStages (streamMode reverse) reverse context item.1 item.2)
      (fun item => callPlugin ctx item.1 (item.1.function reverse))
      (if reverse then plugins.reverse else plugins).zipIdx (by
        intro item hitem
        have hplugin := hordered item.1 (List.fst_mem_of_mem_zipIdx hitem)
        exact (hnative item.1 hplugin).realizes hlimits (hretry item.1 hplugin) reverse item.2)
    refine realizes_congr hrow fun data => ?_
    rw [foldlM_zipIdx fun plugin data => callPlugin ctx plugin (plugin.function reverse) data]

end PipeX
