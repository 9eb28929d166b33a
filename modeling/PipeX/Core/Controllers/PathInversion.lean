/-
  PipeX.Core.Controllers.PathInversion

  What either path of one engine has written, either path of another one restores.

  A plugin is called on whole buffers by `run` and `undo`, and stands in a row of
  stages under `pipe`.  `Plugin.Writes` and `Plugin.Reads` speak of both paths at
  once, through the encoding that the writing and the reading plugin share; it may
  be a relation, since an encryption draws a salt and a compression may depend on
  the cut.  `Encoding.restored` carries this to engines: their plugins need not be
  the same, as long as each reads what its counterpart writes.
-/
import PipeX.Core.Controllers.StreamAgreement
import PipeX.Lib.Inverse

namespace PipeX

open DataEngine Outcomes Chunked

/-! ## The two paths of a plugin -/

/-- The way in which an operation calls its plugins. -/
inductive PluginPath where
  | buffer (ctx : ProcessorContext)
  | stream (context : StreamPluginContext)

namespace PluginPath

def limits : PluginPath → EngineLimits
  | buffer ctx => ctx.limits
  | stream context => context.limits

/-- A plugin and its place, in one direction. -/
def program (reverse : Bool) : PluginPath → Plugin × Nat → Program UInt8 JsError
  | buffer ctx, item => whole (callPlugin ctx item.1 (item.1.function reverse))
  | stream context, item =>
    runStages (pluginStages (streamMode reverse) reverse context item.1 item.2)

end PluginPath

/-- No buffer between two plugins is longer. -/
def Within (limits : EngineLimits) (data : Bytes) : Prop := data.length ≤ limits.maxOutputBytes

/-- A plugin may be handed whatever one before it may have written. -/
theorem Within.le_input {limits : EngineLimits} {data : Bytes} (h : Within limits data) :
    data.length ≤ pluginInputLimit (some limits) :=
  Nat.le_trans h (pluginOutputLimit_le_pluginInputLimit (some limits))

/-- Whichever path the plugin is called on, it writes the encoding `R` of its input. -/
def Plugin.Writes (limits : EngineLimits) (R : Bytes → Bytes → Prop) (plugin : Plugin) : Prop :=
  ∀ path : PluginPath, path.limits = limits → ∀ index,
    EncodesBy (Within limits) (path.program false (plugin, index)) R

/-- Whichever path the plugin is called on, it restores what the encoding `R` stands
    for. -/
structure Plugin.Reads (limits : EngineLimits) (R : Bytes → Bytes → Prop) (plugin : Plugin) :
    Prop where
  streams : supportsStream plugin.declaration = .ok true
  reverses : supportsReverse plugin.declaration = .ok true
  restores : ∀ path : PluginPath, path.limits = limits → ∀ index,
    DecodesBy (Within limits) (path.program true (plugin, index)) R

theorem limitBytes_ok {maxBytes : Nat} {label : String} {data out : Bytes}
    (h : limitBytes maxBytes label data = .ok out) : data.length ≤ maxBytes ∧ out = data := by
  by_cases hlong : data.length > maxBytes
  · rw [limitBytes_exceeds hlong] at h
    cases h
  · rw [limitBytes_fits hlong] at h
    cases h
    exact ⟨Nat.le_of_not_lt hlong, rfl⟩

/-- The encodings of a writing and a reading engine, place by place. -/
def ReadBy (limits : EngineLimits) (writer reader : Plugin) : Prop :=
  ∃ R, writer.Writes limits R ∧ reader.Reads limits R

/-! ### Native streams -/

section Native

variable {limits : EngineLimits} {R : Bytes → Bytes → Prop} {plugin : Plugin}

/-- The stages behind a native stream: the limit on what they are handed. -/
theorem observe_limit_realizes (maxBytes : Nat) (label : String) :
    Realizes [observe.complete (), (buildByteLimitTransform maxBytes label).complete 0]
      (limitBytes maxBytes label) :=
  realizes_congr (realizes_append observe_computes.realizes
    (byteLimit_computes maxBytes label).realizes) fun data => agree_refl (limitBytes maxBytes label data)

theorem program_native (hcreate : plugin.declaration.createStream = true) (reverse : Bool)
    (context : StreamPluginContext) (index : Nat) (chunks : List Bytes) :
    (PluginPath.stream context).program reverse (plugin, index) chunks =
      (plugin.createStream (streamMode reverse) context (handOver chunks)).completed >>=
        runStages [observe.complete (), (buildByteLimitTransform context.limits.maxOutputBytes
          s!"output after plugin {plugin.declaration.name}#{index}").complete 0] := by
  rw [PluginPath.program, pluginStages, if_pos hcreate]
  rfl

/-- A plugin with a native stream, by what its code returns. -/
theorem writes_of_native (hcreate : plugin.declaration.createStream = true)
    (hprocess : ∀ ctx attempt x y, ctx.limits = limits → Within limits x →
      plugin.process ctx attempt x = .ok (some y) → R x y)
    (hstream : ∀ context chunks pushed, context.limits = limits → Within limits chunks.flatten →
      plugin.createStream .compress context chunks = ⟨pushed, .ok ()⟩ →
      R chunks.flatten pushed.flatten) :
    plugin.Writes limits R := by
  rintro (ctx | context) rfl index
  · refine encodes_whole fun x y hx hcall => ?_
    obtain ⟨-, hlen, attempt, hattempt⟩ := callPlugin_ok hcall
    exact ⟨hlen, hprocess ctx attempt x y rfl hx hattempt⟩
  · intro chunks out hchunks hout
    rw [program_native hcreate] at hout
    obtain ⟨pushed, hpushed, hbehind⟩ := bind_ok hout
    -- what the stream has pushed has passed the limit
    obtain ⟨hle, hsame⟩ := limitBytes_ok (pieces_ok (observe_limit_realizes _ _ pushed) hbehind)
    have hR := hstream context _ pushed rfl (by rwa [flatten_handOver])
      (Emit.completed_ok hpushed)
    rw [flatten_handOver, ← hsame] at hR
    exact ⟨hsame ▸ hle, hR⟩

theorem reads_of_native {c : PluginCapabilities}
    (haccepted : getPluginCapabilities plugin.declaration = .ok c)
    (hcreate : plugin.declaration.createStream = true)
    (hreverses : supportsReverse plugin.declaration = .ok true)
    (hretry : checkRetryOptions plugin.retryOptions limits = .ok ())
    (hreverse : ∀ ctx x y, ctx.limits = limits → Within limits x → Within limits y → R x y →
      plugin.reverse ctx 0 y = .ok (some x))
    (hstream : ∀ context chunks x, context.limits = limits → Within limits x →
      Within limits chunks.flatten → R x chunks.flatten →
      ∃ pushed, plugin.createStream .decompress context chunks = ⟨pushed, .ok ()⟩ ∧
        pushed.flatten = x) :
    plugin.Reads limits R where
  streams := supportsStream_of_createStream haccepted hcreate
  reverses := hreverses
  restores := by
    rintro (ctx | context) rfl index
    · refine decodes_whole fun x y hx hy hR => ?_
      have hcall := callPlugin_first hretry (hreverse ctx x y rfl hx hy hR)
      have hfits : ¬ x.length > ctx.limits.maxOutputBytes := Nat.not_lt_of_le hx
      rw [if_neg hfits] at hcall
      exact hcall
    · intro chunks x hx hchunks hR
      obtain ⟨pushed, hrun, rfl⟩ := hstream context (handOver chunks) x rfl hx
        (by rwa [flatten_handOver]) (by rwa [flatten_handOver])
      have hlimit := observe_limit_realizes context.limits.maxOutputBytes
        s!"output after plugin {plugin.declaration.name}#{index}" pushed
      have hfits : ¬ pushed.flatten.length > context.limits.maxOutputBytes := Nat.not_lt_of_le hx
      rw [limitBytes_fits hfits] at hlimit
      obtain ⟨out, hout, hsame⟩ := pieces_of_ok hlimit
      refine ⟨out, ?_, hsame⟩
      rw [program_native hcreate,
        show plugin.createStream (streamMode true) context (handOver chunks) = _ from hrun]
      exact hout

end Native

/-! ### Fallback streams -/

section Fallback

variable {limits : EngineLimits} {plugin : Plugin}

/-- The code of a plugin that hands on what it is handed. -/
structure Plugin.HandsOn (plugin : Plugin) : Prop where
  process : ∀ ctx attempt data, plugin.process ctx attempt data = .ok (some data)
  reverse : ∀ ctx attempt data, plugin.reverse ctx attempt data = .ok (some data)

theorem Plugin.HandsOn.function (h : plugin.HandsOn) (reverse : Bool) (ctx : ProcessorContext)
    (attempt : Nat) (data : Bytes) : plugin.function reverse ctx attempt data = .ok (some data) := by
  cases reverse with
  | false => exact h.process ctx attempt data
  | true => exact h.reverse ctx attempt data

/-- The fallback stage once the call has returned: the check of the direction is
    behind it, that of the length before it. -/
theorem fallback_returned {plugin : Plugin} {reverse : Bool} {context : StreamPluginContext}
    {chunk out : Bytes}
    (hreverses : reverse = true → supportsReverse plugin.declaration = .ok true)
    (hretry : withRetry (fun attempt => plugin.function reverse
      ⟨context.requestId, none, context.limits⟩ attempt chunk) plugin.retryOptions
      context.limits = .ok (some out)) :
    (buildFallbackTransform plugin reverse context).transform () chunk =
      if out.length > context.limits.maxOutputBytes then
        Emit.fail (plainError s!"[PipeX] Plugin output exceeds {context.limits.maxOutputBytes} bytes")
      else
        Emit.push out := by
  cases reverse with
  | false =>
    simp only [buildFallbackTransform, hretry, Emit.liftM_eq, Emit.ofExcept_ok, Emit.pure_bind']
    rfl
  | true =>
    simp only [buildFallbackTransform, hreverses rfl, hretry, Emit.liftM_eq, Emit.ofExcept_ok,
      Emit.pure_bind']
    rfl

/-- Where the fallback stage goes through, the check of the direction and the call did. -/
theorem fallback_called {plugin : Plugin} {reverse : Bool} {context : StreamPluginContext}
    {chunk : Bytes}
    (hsucc : ((buildFallbackTransform plugin reverse context).transform () chunk).Succeeds) :
    (reverse = true → supportsReverse plugin.declaration = .ok true) ∧
      ∃ returned, withRetry (fun attempt => plugin.function reverse
        ⟨context.requestId, none, context.limits⟩ attempt chunk) plugin.retryOptions
        context.limits = .ok returned := by
  have hcall : ∀ {after : Option Bytes → Emit Bytes JsError Unit},
      ((liftM (withRetry (fun attempt => plugin.function reverse
        ⟨context.requestId, none, context.limits⟩ attempt chunk) plugin.retryOptions
        context.limits) : Emit Bytes JsError (Option Bytes)) >>= after).Succeeds →
      ∃ returned, withRetry (fun attempt => plugin.function reverse
        ⟨context.requestId, none, context.limits⟩ attempt chunk) plugin.retryOptions
        context.limits = .ok returned := by
    intro after h
    obtain ⟨returned, hreturned, -⟩ := (Emit.succeeds_bind _ _).mp h
    exact ⟨returned, hreturned⟩
  cases reverse with
  | false => exact ⟨fun h => absurd h Bool.false_ne_true, hcall hsucc⟩
  | true =>
    simp only [buildFallbackTransform] at hsucc
    cases hsupports : supportsReverse plugin.declaration with
    | error e =>
      rw [hsupports] at hsucc
      exact absurd hsucc (Emit.not_succeeds_fail e)
    | ok b =>
      rw [hsupports] at hsucc
      cases b with
      | false => exact absurd hsucc (Emit.not_succeeds_fail _)
      | true => exact ⟨fun _ => rfl, hcall hsucc⟩

/-- What goes through the fallback of such a plugin comes out as it went in. -/
theorem fallback_ok (h : plugin.HandsOn) {reverse : Bool} {context : StreamPluginContext}
    {chunk : Bytes}
    (hsucc : ((buildFallbackTransform plugin reverse context).transform () chunk).Succeeds) :
    (buildFallbackTransform plugin reverse context).transform () chunk = Emit.push chunk := by
  obtain ⟨hreverses, returned, hretry⟩ := fallback_called hsucc
  obtain ⟨-, attempt, hattempt⟩ := withRetry_ok hretry
  rw [h.function] at hattempt
  cases hattempt
  rw [fallback_returned hreverses hretry] at hsucc ⊢
  by_cases hlen : chunk.length > context.limits.maxOutputBytes
  · rw [if_pos hlen] at hsucc
    exact absurd hsucc (Emit.not_succeeds_fail _)
  · rw [if_neg hlen]

theorem fallback_push (h : plugin.HandsOn) {reverse : Bool} {context : StreamPluginContext}
    (hretry : checkRetryOptions plugin.retryOptions context.limits = .ok ())
    (hreverses : reverse = true → supportsReverse plugin.declaration = .ok true) {chunk : Bytes}
    (hwithin : Within context.limits chunk) :
    (buildFallbackTransform plugin reverse context).transform () chunk = Emit.push chunk := by
  have hlen : ¬ chunk.length > context.limits.maxOutputBytes := Nat.not_lt_of_le hwithin
  rw [fallback_returned hreverses (withRetry_first hretry (h.function ..)), if_neg hlen]

theorem program_fallback (hcreate : plugin.declaration.createStream = false) (reverse : Bool)
    (context : StreamPluginContext) (index : Nat) (chunks : List Bytes) :
    (PluginPath.stream context).program reverse (plugin, index) chunks =
      ((each ((buildFallbackTransform plugin reverse context).transform ())).complete ()
          (handOver chunks)).completed >>=
        runStages [(buildByteLimitTransform context.limits.maxOutputBytes
          s!"output after plugin {plugin.declaration.name}#{index}").complete 0] := by
  rw [PluginPath.program, pluginStages, if_neg (by rw [hcreate]; exact Bool.false_ne_true)]
  rfl

/-- A plugin without a stream of its own that hands on what it is handed. -/
theorem writes_of_handsOn (h : plugin.HandsOn) (hcreate : plugin.declaration.createStream = false) :
    plugin.Writes limits Eq := by
  rintro (ctx | context) rfl index
  · refine encodes_whole fun x y _ hcall => ?_
    obtain ⟨-, hlen, attempt, hattempt⟩ := callPlugin_ok hcall
    rw [h.function] at hattempt
    cases hattempt
    exact ⟨hlen, rfl⟩
  · intro chunks out hchunks hout
    rw [program_fallback hcreate] at hout
    obtain ⟨passed, hpassed, hbehind⟩ := bind_ok hout
    obtain ⟨hle, hsame⟩ := limitBytes_ok
      (pieces_ok ((byteLimit_computes _ _).realizes passed) hbehind)
    have heach := each_completed_eq (fun _ => fallback_ok h) hpassed
    rw [heach, flatten_handOver] at hle hsame
    exact ⟨hsame ▸ hle, hsame.symm⟩

theorem length_le_flatten {chunk : Bytes} {chunks : List Bytes} (h : chunk ∈ chunks) :
    chunk.length ≤ chunks.flatten.length := by
  rw [List.length_flatten]
  exact List.single_le_sum (fun _ _ => Nat.zero_le _) _ (List.mem_map_of_mem h)

theorem reads_of_handsOn (h : plugin.HandsOn)
    (hcreate : plugin.declaration.createStream = false)
    (hstreams : supportsStream plugin.declaration = .ok true)
    (hreverses : supportsReverse plugin.declaration = .ok true)
    (hretry : checkRetryOptions plugin.retryOptions limits = .ok ()) :
    plugin.Reads limits Eq where
  streams := hstreams
  reverses := hreverses
  restores := by
    rintro (ctx | context) rfl index
    · refine decodes_whole fun x y hx hy hR => ?_
      subst hR
      have hcall := callPlugin_first hretry (h.reverse ctx 0 x)
      have hfits : ¬ x.length > ctx.limits.maxOutputBytes := Nat.not_lt_of_le hx
      rw [if_neg hfits] at hcall
      exact hcall
    · rintro chunks x hx - rfl
      have hall : ((each ((buildFallbackTransform plugin true context).transform ())).complete ()
          (handOver chunks)).completed = .ok (handOver chunks) := by
        refine each_push fun chunk hchunk => fallback_push h hretry (fun _ => hreverses) ?_
        refine Nat.le_trans (length_le_flatten hchunk) ?_
        rw [flatten_handOver]
        exact hx
      have hlimit := (byteLimit_computes context.limits.maxOutputBytes
        s!"output after plugin {plugin.declaration.name}#{index}").realizes (handOver chunks)
      have hfits : ¬ chunks.flatten.length > context.limits.maxOutputBytes := Nat.not_lt_of_le hx
      rw [flatten_handOver, limitBytes_fits hfits] at hlimit
      obtain ⟨out, hout, hsame⟩ := pieces_of_ok hlimit
      refine ⟨out, ?_, hsame⟩
      rw [program_fallback hcreate, hall]
      exact hout

end Fallback

/-! ## The rows of two engines -/

/-- All plugins of an engine, in the order of the direction. -/
def PluginPath.row (reverse : Bool) (path : PluginPath) (plugins : List Plugin) :
    Program UInt8 JsError :=
  fun chunks => ((if reverse then plugins.reverse else plugins).zipIdx).foldlM
    (fun chunks item => path.program reverse item chunks) chunks

/-- On whichever paths the two rows are run, the second leads back. -/
theorem undoes_row {limits : EngineLimits} {writers readers : List Plugin}
    (h : List.Forall₂ (ReadBy limits) writers readers) {path path' : PluginPath}
    (hpath : path.limits = limits) (hpath' : path'.limits = limits) :
    Undoes (Within limits) (path'.row true readers) (path.row false writers) := by
  refine undoes_foldlM ?_ 0 0
  refine h.imp fun writer reader hread => ?_
  obtain ⟨R, hwrites, hreads⟩ := hread
  exact fun i i' => (hwrites path hpath i).undoes (hreads.restores path' hpath' i')

/-- The row of calls on a whole buffer. -/
theorem row_buffer (reverse : Bool) (ctx : ProcessorContext) (plugins : List Plugin)
    (data : Bytes) :
    (PluginPath.buffer ctx).row reverse plugins [data] =
      ((if reverse then plugins.reverse else plugins).foldlM
        (fun data plugin => callPlugin ctx plugin (plugin.function reverse) data) data).map
          fun out => [out] := by
  rw [← foldlM_whole]
  exact foldlM_zipIdx (fun plugin => whole (callPlugin ctx plugin (plugin.function reverse))) _ [data]

/-- The row of stages. -/
theorem row_stream (reverse : Bool) (context : StreamPluginContext) (plugins : List Plugin)
    (chunks : List Bytes) :
    runStages ((if reverse then plugins.reverse else plugins).zipIdx.flatMap fun item =>
        pluginStages (streamMode reverse) reverse context item.1 item.2) chunks =
      (PluginPath.stream context).row reverse plugins chunks :=
  runStages_flatMap _ chunks

namespace EngineCode

variable {Obj : Type} {code : EngineCode Obj} {engine : DataEngine}

/-! ### The pipeline between its limits -/

/-- `runPipeline(source, transforms, destination)` of `pipe`, and of `process` and
    `reverse` on files, for a destination that takes everything. -/
def runPipeline (code : EngineCode Obj) (requestId : RequestId) (reverse : Bool)
    (source : List Bytes) (engine : DataEngine) : Except JsError (List Bytes) := do
  let limits := engine.limits
  let transforms ←
    buildTransformChain code.plugins (streamMode reverse) reverse ⟨requestId, limits⟩
  runStages
    ([(buildByteLimitTransform limits.maxInputBytes "input").complete 0] ++ transforms ++
      [(buildByteLimitTransform limits.maxOutputBytes "output").complete 0]) source

theorem pipeBody_eq (code : EngineCode Obj) (requestId : RequestId) (reverse : Bool)
    (source : List Bytes) (engine : DataEngine) :
    code.pipeBody requestId reverse source engine = (do
      let delivered ← code.runPipeline requestId reverse source engine
      code.emitAudit engine requestId (if reverse then .reverse else .process) .stream
      return delivered) := by
  simp only [pipeBody, runPipeline, bind_assoc]

/-- The row stands between the two limits. -/
theorem runPipeline_eq {requestId : RequestId} {reverse : Bool} {stages : List (Stage UInt8 JsError)}
    (hchain : buildTransformChain code.plugins (streamMode reverse) reverse
      ⟨requestId, engine.limits⟩ = .ok stages) (source : List Bytes) :
    code.runPipeline requestId reverse source engine = (do
      let chunks ← runStages [(buildByteLimitTransform engine.limits.maxInputBytes "input").complete 0]
        source
      let chunks ← runStages stages chunks
      runStages [(buildByteLimitTransform engine.limits.maxOutputBytes "output").complete 0]
        chunks) := by
  simp only [runPipeline, hchain, runStages_append, bind_assoc]
  rfl

/-- A chain that was built is the row of the plugins. -/
theorem buildTransformChain_ok {plugins : List Plugin} {reverse : Bool}
    {context : StreamPluginContext} {stages : List (Stage UInt8 JsError)}
    (h : buildTransformChain plugins (streamMode reverse) reverse context = .ok stages)
    (chunks : List Bytes) :
    runStages stages chunks = (PluginPath.stream context).row reverse plugins chunks := by
  simp only [buildTransformChain] at h
  obtain ⟨-, -, h⟩ := bind_ok h
  have h := check_ok h
  cases h
  exact row_stream reverse context plugins chunks

theorem buildTransformChain_of_supports {plugins : List Plugin} {reverse : Bool}
    (context : StreamPluginContext)
    (hstreams : ∀ plugin ∈ plugins, supportsStream plugin.declaration = .ok true)
    (hreverses : ∀ plugin ∈ plugins, supportsReverse plugin.declaration = .ok true) :
    ∃ stages, buildTransformChain plugins (streamMode reverse) reverse context = .ok stages := by
  have hstreaming : assertStreamingPipeline (plugins.map Plugin.declaration) = .ok () :=
    assertPipeline_declarations hstreams
  have hreversible : assertReversiblePipeline (plugins.map Plugin.declaration) = .ok () :=
    assertPipeline_declarations hreverses
  cases reverse with
  | false =>
    simp only [buildTransformChain, hstreaming]
    exact ⟨_, rfl⟩
  | true =>
    simp only [buildTransformChain, hstreaming, hreversible]
    exact ⟨_, rfl⟩

/-- A pipeline that went through. -/
theorem runPipeline_ok {requestId : RequestId} {reverse : Bool} {source delivered : List Bytes}
    (h : code.runPipeline requestId reverse source engine = .ok delivered) :
    ∃ chunks out, chunks.flatten = source.flatten ∧
      (PluginPath.stream ⟨requestId, engine.limits⟩).row reverse code.plugins chunks = .ok out ∧
      delivered.flatten = out.flatten := by
  obtain ⟨stages, hchain, -⟩ := bind_ok h
  rw [runPipeline_eq hchain] at h
  obtain ⟨chunks, hinput, h⟩ := bind_ok h
  obtain ⟨out, hrow, houtput⟩ := bind_ok h
  rw [buildTransformChain_ok hchain] at hrow
  exact ⟨chunks, out,
    (limitBytes_ok (pieces_ok ((byteLimit_computes _ _).realizes source) hinput)).2, hrow,
    (limitBytes_ok (pieces_ok ((byteLimit_computes _ _).realizes out) houtput)).2⟩

/-- A pipeline whose row goes through within the limits. -/
theorem runPipeline_of_row {requestId : RequestId} {reverse : Bool} {source : List Bytes} {x : Bytes}
    (hstreams : ∀ plugin ∈ code.plugins, supportsStream plugin.declaration = .ok true)
    (hreverses : ∀ plugin ∈ code.plugins, supportsReverse plugin.declaration = .ok true)
    (hinput : source.flatten.length ≤ engine.limits.maxInputBytes)
    (hrow : ∀ chunks, chunks.flatten = source.flatten → ∃ out,
      (PluginPath.stream ⟨requestId, engine.limits⟩).row reverse code.plugins chunks = .ok out ∧
        out.flatten = x)
    (houtput : Within engine.limits x) :
    ∃ delivered, code.runPipeline requestId reverse source engine = .ok delivered ∧
      delivered.flatten = x := by
  obtain ⟨stages, hchain⟩ : ∃ stages, buildTransformChain code.plugins (streamMode reverse)
      reverse ⟨requestId, engine.limits⟩ = .ok stages :=
    buildTransformChain_of_supports ⟨requestId, engine.limits⟩ hstreams hreverses
  have hfits : ¬ source.flatten.length > engine.limits.maxInputBytes := Nat.not_lt_of_le hinput
  have hfits' : ¬ x.length > engine.limits.maxOutputBytes := Nat.not_lt_of_le houtput
  -- the limit in front, the row, the limit behind
  have hfront := (byteLimit_computes engine.limits.maxInputBytes "input").realizes source
  rw [limitBytes_fits hfits] at hfront
  obtain ⟨chunks, hchunks, hsame⟩ := pieces_of_ok hfront
  obtain ⟨out, hout, rfl⟩ := hrow chunks hsame
  have hbehind := (byteLimit_computes engine.limits.maxOutputBytes "output").realizes out
  rw [limitBytes_fits hfits'] at hbehind
  obtain ⟨delivered, hdelivered, hsame'⟩ := pieces_of_ok hbehind
  refine ⟨delivered, ?_, hsame'⟩
  rw [runPipeline_eq hchain, hchunks]
  show runStages stages chunks >>= _ = _
  rw [buildTransformChain_ok hchain, hout]
  exact hdelivered

/-! ## Two engines -/

/-- What an engine has made of some bytes: by `binary.run`, by `stream.pipe`, or by a
    pipeline between two files. -/
inductive Encoding (code : EngineCode Obj) (engine : DataEngine) : Bytes → Bytes → Prop
  | run {requestId : RequestId} {clock : Nat → Int} {input : Value Obj} {data : Bytes}
      {r : LocalResult} {after : DataEngine} (fresh : engine.Fresh requestId)
      (encoded : toBuffer code.host input = .ok data)
      (resolved : (code.run requestId clock input).run engine = .ok r after) :
      Encoding code engine data r.result.data
  | pipe {requestId : RequestId} {source delivered : List Bytes} {after : DataEngine}
      (fresh : engine.Fresh requestId)
      (resolved : (code.pipe requestId false source).run engine = .ok delivered after) :
      Encoding code engine source.flatten delivered.flatten
  | file {requestId : RequestId} {source delivered : List Bytes}
      (delivers : code.runPipeline requestId false source engine = .ok delivered) :
      Encoding code engine source.flatten delivered.flatten

/-- Either way the row of the plugins has led there. -/
theorem Encoding.row {data encoded : Bytes} (h : Encoding code engine data encoded) :
    ∃ path : PluginPath, path.limits = engine.limits ∧ ∃ chunks out, chunks.flatten = data ∧
      path.row false code.plugins chunks = .ok out ∧ out.flatten = encoded := by
  have hpipeline : ∀ {requestId : RequestId} {source delivered : List Bytes},
      code.runPipeline requestId false source engine = .ok delivered →
      ∃ path : PluginPath, path.limits = engine.limits ∧ ∃ chunks out,
        chunks.flatten = source.flatten ∧ path.row false code.plugins chunks = .ok out ∧
        out.flatten = delivered.flatten := by
    intro requestId source delivered hdelivers
    obtain ⟨chunks, out, hchunks, hrow, hsame⟩ := runPipeline_ok hdelivers
    exact ⟨.stream ⟨requestId, engine.limits⟩, rfl, chunks, out, hchunks, hrow, hsame.symm⟩
  cases h with
  | @run requestId clock input data r after fresh hencoded resolved =>
    obtain ⟨-, data', hran⟩ := run_ok fresh resolved
    rw [hran.encoded] at hencoded
    cases hencoded
    have hdata := processPlugins_data ⟨requestId, some (detectType input), engine.limits⟩ clock 1
      code.plugins data []
    rw [hran.processed] at hdata
    refine ⟨.buffer ⟨requestId, some (detectType input), engine.limits⟩, rfl, [data],
      [r.result.data], List.flatten_singleton, ?_, List.flatten_singleton⟩
    rw [row_buffer]
    exact congrArg (Except.map fun out => [out]) hdata.symm
  | @pipe requestId source delivered after fresh resolved =>
    cases hschema : code.schema with
    | some safeParse =>
      simp only [EngineCode.pipe, hschema] at resolved
      cases resolved
    | none =>
      have hpipe : (code.pipe requestId false source).run engine =
          (request requestId id (code.pipeBody requestId false source)).run engine := by
        simp only [EngineCode.pipe, hschema]
        rfl
      rw [hpipe] at resolved
      obtain ⟨-, -, hbody⟩ := request_ok fresh rfl resolved
      rw [pipeBody_eq] at hbody
      obtain ⟨delivered', hdelivers, hbody⟩ := bind_ok hbody
      obtain ⟨-, -, hbody⟩ := bind_ok hbody
      cases hbody
      exact hpipeline hdelivers
  | file hdelivers => exact hpipeline hdelivers

/-! ### Back -/

section Back

variable {code' : EngineCode Obj} {engine' : DataEngine} {data encoded : Bytes}

/-- Plugins that read can be called backwards and streamed. -/
theorem readBy_supports (hplugins : List.Forall₂ (ReadBy engine.limits) code.plugins code'.plugins) :
    (∀ plugin ∈ code'.plugins, supportsStream plugin.declaration = .ok true) ∧
      ∀ plugin ∈ code'.plugins, supportsReverse plugin.declaration = .ok true := by
  have hplugin : ∀ plugin ∈ code'.plugins, ∃ R, plugin.Reads engine.limits R :=
    ((List.forall₂_and_left (R := fun _ _ => True) _ _).mp (hplugins.flip.imp
      fun reader writer hread => ⟨hread.imp fun R hR => hR.2, trivial⟩)).1
  exact ⟨fun plugin hmem => (hplugin plugin hmem).elim fun R hR => hR.streams,
    fun plugin hmem => (hplugin plugin hmem).elim fun R hR => hR.reverses⟩

/-- Whichever path has encoded the bytes, either row leads back. -/
theorem Encoding.back (h : Encoding code engine data encoded)
    (hplugins : List.Forall₂ (ReadBy engine.limits) code.plugins code'.plugins)
    (hdata : data.length ≤ engine.limits.maxOutputBytes) {path : PluginPath}
    (hpath : path.limits = engine.limits) {cut : List Bytes} (hcut : cut.flatten = encoded) :
    ∃ restored, path.row true code'.plugins cut = .ok restored ∧ restored.flatten = data := by
  obtain ⟨path', hpath', chunks, out, rfl, hrow, rfl⟩ := h.row
  exact (undoes_row hplugins hpath' hpath).back hdata hrow cut hcut

/-- A reversed pipeline delivers the bytes. -/
theorem runPipeline_restored (h : Encoding code engine data encoded)
    (hplugins : List.Forall₂ (ReadBy engine.limits) code.plugins code'.plugins)
    (hlimits : engine'.limits = engine.limits) (hdata : data.length ≤ engine.limits.maxOutputBytes)
    (hencoded : encoded.length ≤ engine.limits.maxInputBytes) (requestId : RequestId)
    {cut : List Bytes} (hcut : cut.flatten = encoded) :
    ∃ delivered, code'.runPipeline requestId true cut engine' = .ok delivered ∧
      delivered.flatten = data := by
  obtain ⟨hstreams, hreverses⟩ := readBy_supports hplugins
  have hpath : (PluginPath.stream ⟨requestId, engine'.limits⟩).limits = engine.limits := hlimits
  refine runPipeline_of_row hstreams hreverses ?_ (fun c hc => ?_) ?_
  · rw [hcut, hlimits]
    exact hencoded
  · exact h.back hplugins hdata hpath (hc.trans hcut)
  · rw [hlimits]
    exact hdata

/-- So does one call after another on the whole of it. -/
theorem reversePlugins_restored (h : Encoding code engine data encoded)
    (hplugins : List.Forall₂ (ReadBy engine.limits) code.plugins code'.plugins)
    (hdata : data.length ≤ engine.limits.maxOutputBytes) (requestId : RequestId)
    (originalType : Option TypeName) :
    reversePlugins ⟨requestId, originalType, engine.limits⟩ code'.plugins encoded = .ok data := by
  obtain ⟨restored, hrestored, hsame⟩ := h.back hplugins hdata
    (show (PluginPath.buffer ⟨requestId, originalType, engine.limits⟩).limits = engine.limits from
      rfl) List.flatten_singleton
  rw [row_buffer] at hrestored
  show code'.plugins.reverse.foldlM _ _ = _
  cases hfold : (if true then code'.plugins.reverse else code'.plugins).foldlM
      (fun data plugin => callPlugin ⟨requestId, originalType, engine.limits⟩ plugin
        (plugin.function true) data) encoded with
  | error e =>
    rw [hfold] at hrestored
    cases hrestored
  | ok x =>
    rw [hfold] at hrestored
    cases hrestored
    rw [List.flatten_singleton] at hsame
    rw [← hsame]
    exact hfold

end Back

/-- An engine that can be given what another one has encoded. -/
structure ReadsFrom (code' : EngineCode Obj) (engine' : DataEngine) (code : EngineCode Obj)
    (engine : DataEngine) : Prop where
  runs : code'.RunsOn engine'
  limits : engine'.limits = engine.limits
  plugins : List.Forall₂ (ReadBy engine.limits) code.plugins code'.plugins
  /-- without a plugin, raw input may be taken for a package -/
  nonempty : code'.plugins ≠ []
  schema : code'.schema = none
  audits : ∀ log, code'.auditLogger = some log → ∀ record, log record = .ok ()
  slot : engine'.activeRequests.card < engine'.limits.maxConcurrentOperations

theorem emitAudit_ok (haudits : ∀ log, code.auditLogger = some log → ∀ record, log record = .ok ())
    (engine : DataEngine) (requestId : RequestId) (operation : AuditOperation)
    (metadata : AuditMetadata) : code.emitAudit engine requestId operation metadata = .ok () := by
  cases hlogger : code.auditLogger with
  | none => simp only [emitAudit, hlogger]
  | some log => simp only [emitAudit, hlogger, haudits log hlogger]

/-- Whichever path has encoded the bytes, `undo` decodes a value from them and a
    reversed `pipe` delivers them, however the encoding is cut on its way. -/
theorem encoding_restored {code' : EngineCode Obj} {engine' : DataEngine} {data encoded : Bytes}
    (h : Encoding code engine data encoded) (hreads : ReadsFrom code' engine' code engine)
    (hdata : data.length ≤ engine.limits.maxOutputBytes)
    (hencoded : encoded.length ≤ engine.limits.maxInputBytes) :
    (∀ requestId forceType, engine'.Fresh requestId → assertOriginalType forceType = .ok () →
      outcome ((code'.undoRaw requestId encoded forceType).run engine') =
        fromBuffer code'.host data forceType engine.limits.maxFrameBytes) ∧
    ∀ requestId cut, engine'.Fresh requestId → cut.flatten = encoded →
      ∃ delivered, outcome ((code'.pipe requestId true cut).run engine') = .ok delivered ∧
        delivered.flatten = data := by
  have hlimits := hreads.limits
  refine ⟨fun requestId forceType hfresh htype => ?_, fun requestId cut hfresh hcut => ?_⟩
  · have hreversible : assertReversiblePipeline engine'.plugins = .ok () := by
      rw [hreads.runs.plugins]
      exact assertPipeline_declarations (readBy_supports hreads.plugins).2
    have hin : ¬ encoded.length > engine.limits.maxInputBytes := Nat.not_lt_of_le hencoded
    have hout : ¬ data.length > engine.limits.maxOutputBytes := Nat.not_lt_of_le hdata
    rw [undoRaw_outcome htype, undoRequest_outcome hfresh hreads.slot, hreversible, hlimits,
      undoBody_of_unwrapped _ (fun _ hnil => absurd hnil hreads.nonempty), started_limits, hlimits,
      reversePlugins_restored h hreads.plugins hdata]
    show (if encoded.length > engine.limits.maxInputBytes then _ else
      if data.length > engine.limits.maxOutputBytes then _ else _) = _
    rw [if_neg hin, if_neg hout]
    cases fromBuffer code'.host data forceType engine.limits.maxFrameBytes with
    | error e => rfl
    | ok restored =>
      show code'.validate restored >>= _ = _
      rw [validate_none _ hreads.schema]
      show code'.emitAudit _ _ _ _ >>= _ = _
      rw [emitAudit_ok hreads.audits]
      rfl
  · obtain ⟨delivered, hdelivers, hsame⟩ := runPipeline_restored h hreads.plugins
      (show (engine'.started requestId).limits = engine.limits from hlimits) hdata hencoded requestId hcut
    refine ⟨delivered, ?_, hsame⟩
    rw [pipe_outcome hfresh hreads.schema, slotted_free hreads.slot, pipeBody_eq, hdelivers]
    show code'.emitAudit _ _ _ _ >>= _ = _
    rw [emitAudit_ok hreads.audits]
    rfl

end EngineCode
end PipeX
