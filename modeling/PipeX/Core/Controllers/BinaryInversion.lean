/-
  PipeX.Core.Controllers.BinaryInversion

  `undo` behind `run`.

  * `reversePlugins_processPlugins` — over any list of plugins, the reverse loop
    goes back through the buffers of the forward loop; only the first of them has
    not been measured against the output limit.
  * `undo_run` — from there, what `undo` makes of a result of `run`.
  * `undo_overloads` — the two overloads of `undo` differ on packages only.
-/
import Mathlib
import PipeX.Core.Controllers.BinaryController
import PipeX.Lib.Outcome

namespace PipeX

open DataEngine Outcomes Chunked

/-- `reverse(process(x)) = x` under these limits, whatever the attempts. -/
def Plugin.Inverts (plugin : Plugin) (limits : EngineLimits) : Prop :=
  ∀ ctx attempt data output, ctx.limits = limits →
    plugin.process ctx attempt data = .ok (some output) →
    ∀ ctx' attempt', ctx'.limits = limits → plugin.reverse ctx' attempt' output = .ok (some data)

namespace EngineCode

variable {Obj : Type} {code : EngineCode Obj}

/-! ## The two loops -/

theorem processPlugins_cons_ok {ctx : ProcessorContext} {clock : Nat → Int} {reading : Nat}
    {plugin : Plugin} {plugins : List Plugin} {data out : Bytes}
    {steps steps' : List (String × JsDouble)}
    (h : processPlugins ctx clock reading (plugin :: plugins) data steps = .ok (out, steps')) :
    ∃ output steps₁, callPlugin ctx plugin plugin.process data = .ok output ∧
      processPlugins ctx clock (reading + 2) plugins output steps₁ = .ok (out, steps') := by
  simp only [processPlugins, bind, Except.bind] at h
  split at h
  · cases h
  rename_i output hcall
  exact ⟨output, _, hcall, h⟩

theorem reversePlugins_cons (ctx : ProcessorContext) (plugin : Plugin) (plugins : List Plugin)
    (data : Bytes) :
    reversePlugins ctx (plugin :: plugins) data =
      reversePlugins ctx plugins data >>= callPlugin ctx plugin plugin.reverse := by
  simp only [reversePlugins, List.reverse_cons, List.foldlM_append, List.foldlM_cons,
    List.foldlM_nil, bind_pure]

/-- One plugin back. -/
theorem callPlugin_reverse {ctx ctx' : ProcessorContext} {plugin : Plugin} {data output : Bytes}
    (hinverts : plugin.Inverts ctx.limits) (hlimits : ctx'.limits = ctx.limits)
    (h : callPlugin ctx plugin plugin.process data = .ok output) :
    callPlugin ctx' plugin plugin.reverse output =
      if data.length > ctx.limits.maxOutputBytes then
        .error (plainError "[PipeX] Plugin output exceeds configured limit")
      else
        .ok data := by
  -- whichever attempt it was that returned, the first one back returns its input
  obtain ⟨hcheck, -, attempt, hattempt⟩ := callPlugin_ok h
  have hback := hinverts ctx attempt data output rfl hattempt ctx' 0 hlimits
  rw [← hlimits] at hcheck ⊢
  exact callPlugin_first hcheck hback

/-- A forward loop whose input is no longer than an output may be is gone back
    through. -/
theorem reversePlugins_of_le {ctx ctx' : ProcessorContext} (hlimits : ctx'.limits = ctx.limits)
    {clock : Nat → Int} {reading : Nat} {plugins : List Plugin}
    (hinverts : ∀ plugin ∈ plugins, plugin.Inverts ctx.limits) {data out : Bytes}
    {steps steps' : List (String × JsDouble)} (hle : data.length ≤ ctx.limits.maxOutputBytes)
    (h : processPlugins ctx clock reading plugins data steps = .ok (out, steps')) :
    reversePlugins ctx' plugins out = .ok data := by
  induction plugins generalizing reading data steps with
  | nil =>
    cases h
    rfl
  | cons plugin plugins ih =>
    obtain ⟨output, steps₁, hcall, hrest⟩ := processPlugins_cons_ok h
    -- the buffer behind this plugin has passed the output check
    obtain ⟨-, houtput, -⟩ := callPlugin_ok hcall
    have hback := ih (fun p hp => hinverts p (List.mem_cons_of_mem _ hp)) houtput hrest
    have hlast := callPlugin_reverse (hinverts plugin (List.mem_cons_self ..)) hlimits hcall
    rw [if_neg (Nat.not_lt_of_le hle)] at hlast
    rw [reversePlugins_cons, hback]
    exact hlast

theorem reversePlugins_processPlugins {ctx ctx' : ProcessorContext}
    (hlimits : ctx'.limits = ctx.limits) {clock : Nat → Int} {reading : Nat}
    {plugins : List Plugin} (hne : plugins ≠ [])
    (hinverts : ∀ plugin ∈ plugins, plugin.Inverts ctx.limits) {data out : Bytes}
    {steps steps' : List (String × JsDouble)}
    (h : processPlugins ctx clock reading plugins data steps = .ok (out, steps')) :
    reversePlugins ctx' plugins out =
      if data.length > ctx.limits.maxOutputBytes then
        .error (plainError "[PipeX] Plugin output exceeds configured limit")
      else
        .ok data := by
  cases plugins with
  | nil => exact absurd rfl hne
  | cons plugin plugins =>
    obtain ⟨output, steps₁, hcall, hrest⟩ := processPlugins_cons_ok h
    -- only the input of the first plugin has not been measured
    obtain ⟨-, houtput, -⟩ := callPlugin_ok hcall
    have hback := reversePlugins_of_le hlimits
      (fun p hp => hinverts p (List.mem_cons_of_mem _ hp)) houtput hrest
    rw [reversePlugins_cons, hback]
    exact callPlugin_reverse (hinverts plugin (List.mem_cons_self ..)) hlimits hcall

/-! ## A run that resolved -/

/-- What is known of a result of `run`. -/
structure Ran (code : EngineCode Obj) (engine : DataEngine) (requestId : RequestId)
    (clock : Nat → Int) (input : Value Obj) (r : LocalResult) (data : Bytes) : Prop where
  supported : assertOriginalType (detectType input) = .ok ()
  slot : engine.activeRequests.card < engine.limits.maxConcurrentOperations
  validated : code.validate input = .ok ()
  encoded : toBuffer code.host input = .ok data
  input_le : data.length ≤ engine.limits.maxInputBytes
  processed : processPlugins ⟨requestId, some (detectType input), engine.limits⟩ clock 1 code.plugins
    data [] = .ok (r.result.data, r.result.steps)
  output_le : r.result.data.length ≤ engine.limits.maxOutputBytes
  originalType : r.result.originalType = detectType input
  trustedType : r.trustedType = detectType input
  pipeline : r.result.pipeline = engine.pipeline
  durationMs : r.result.durationMs = .integer (clock (2 * code.plugins.length + 1) - clock 0)

theorem runBody_ok {requestId : RequestId} {clock : Nat → Int} {input : Value Obj}
    {engine : DataEngine} {r : LocalResult}
    (hsupported : assertOriginalType (detectType input) = .ok ())
    (hslot : engine.activeRequests.card < engine.limits.maxConcurrentOperations)
    (h : code.runBody requestId clock (detectType input) input (engine.started requestId) = .ok r) :
    ∃ data, Ran code engine requestId clock input r data := by
  simp only [runBody, started_limits] at h
  -- one line for each statement of the block
  obtain ⟨_, hvalidated, h⟩ := bind_ok h
  obtain ⟨-, -, h⟩ := bind_ok h
  obtain ⟨data, hencoded, h⟩ := bind_ok h
  obtain ⟨hinput, h⟩ := guard_ok h
  have h := check_ok h
  obtain ⟨⟨out, steps⟩, hprocessed, h⟩ := bind_ok h
  obtain ⟨houtput, h⟩ := guard_ok h
  obtain ⟨-, -, h⟩ := bind_ok h
  cases h
  exact ⟨data, hsupported, hslot, hvalidated, hencoded, Nat.le_of_not_lt hinput, hprocessed,
    Nat.le_of_not_lt houtput, rfl, rfl, rfl, rfl⟩

/-- A `run` that resolved leaves the engine as it was. -/
theorem run_ok {engine engine' : DataEngine} {requestId : RequestId}
    (hfresh : engine.Fresh requestId) {clock : Nat → Int} {input : Value Obj} {r : LocalResult}
    (h : (code.run requestId clock input).run engine = .ok r engine') :
    engine' = engine ∧ ∃ data, Ran code engine requestId clock input r data := by
  cases hsupported : assertOriginalType (detectType input) with
  | error e =>
    simp only [run, EStateM.run_bind, hsupported] at h
    cases h
  | ok u =>
    have hrun : (code.run requestId clock input).run engine =
        (request requestId (·.releaseRequest requestId)
          (code.runBody requestId clock (detectType input) input)).run engine := by
      simp only [run, EStateM.run_bind, hsupported, check, EStateM.run_pure]
    rw [hrun] at h
    obtain ⟨heq, hslot, hbody⟩ := request_ok hfresh hfresh.release h
    exact ⟨heq, runBody_ok hsupported hslot hbody⟩

/-- The reverse loop over the result of a `run`, in any context. -/
theorem Ran.reversed {engine : DataEngine} {requestId : RequestId} {clock : Nat → Int}
    {input : Value Obj} {r : LocalResult} {data : Bytes}
    (h : Ran code engine requestId clock input r data) (hne : code.plugins ≠ [])
    (hinverts : ∀ plugin ∈ code.plugins, plugin.Inverts engine.limits) (ctx : ProcessorContext)
    (hlimits : ctx.limits = engine.limits) :
    reversePlugins ctx code.plugins r.result.data =
      if data.length > engine.limits.maxOutputBytes then
        .error (plainError "[PipeX] Plugin output exceeds configured limit")
      else
        .ok data := by
  refine reversePlugins_processPlugins ?_ hne hinverts h.processed
  exact hlimits

/-! ## What `undo` comes to -/

/-- `undo` behind the checks of its arguments. -/
theorem undoRequest_slotted {engine : DataEngine} {requestId : RequestId}
    (hfresh : engine.Fresh requestId) (raw : Bool) (origType : TypeName) (data : Bytes) :
    outcome ((code.undoRequest requestId raw origType data).run engine) =
      (do
        assertReversiblePipeline engine.plugins
        if data.length > engine.limits.maxInputBytes then
          throw (plainError "[PipeX] Undo input exceeds configured limit")
        slotted engine (code.undoBody requestId raw origType data (engine.started requestId))) := by
  simp only [undoRequest, EStateM.run_bind, EStateM.run_get]
  cases assertReversiblePipeline engine.plugins with
  | error e => rfl
  | ok u =>
    simp only [check, EStateM.run_pure]
    -- both checks come before the slot is taken
    by_cases hinput : data.length > engine.limits.maxInputBytes
    · simp only [hinput, if_true]
      rfl
    · simp only [hinput, if_false]
      exact request_outcome hfresh hfresh.release _

/-- The same on an engine with a free slot. -/
theorem undoRequest_outcome {engine : DataEngine} {requestId : RequestId}
    (hfresh : engine.Fresh requestId)
    (hslot : engine.activeRequests.card < engine.limits.maxConcurrentOperations) (raw : Bool)
    (origType : TypeName) (data : Bytes) :
    outcome ((code.undoRequest requestId raw origType data).run engine) =
      (do
        assertReversiblePipeline engine.plugins
        if data.length > engine.limits.maxInputBytes then
          throw (plainError "[PipeX] Undo input exceeds configured limit")
        code.undoBody requestId raw origType data (engine.started requestId)) := by
  simp only [undoRequest_slotted hfresh, slotted_free hslot]

theorem undoRaw_outcome {engine : DataEngine} {requestId : RequestId} {forceType : TypeName}
    (hsupported : assertOriginalType forceType = .ok ()) (input : Bytes) :
    outcome ((code.undoRaw requestId input forceType).run engine) =
      outcome ((code.undoRequest requestId true forceType input).run engine) := by
  simp only [undoRaw, EStateM.run_bind, hsupported, check, EStateM.run_pure]

/-- Where no package is taken apart, `undo` is the reverse loop and the decoding. -/
theorem undoBody_of_unwrapped (engine : DataEngine) {raw : Bool} {origType : TypeName}
    {data : Bytes}
    (h : raw = true → code.plugins = [] → code.unwrapPackage engine.limits origType data = .ok data)
    (requestId : RequestId) :
    code.undoBody requestId raw origType data engine =
      (do
        let data ← reversePlugins ⟨requestId, some origType, engine.limits⟩ code.plugins data
        if data.length > engine.limits.maxOutputBytes then
          throw (plainError "[PipeX] Output exceeds configured limit")
        let restored ← fromBuffer code.host data origType engine.limits.maxFrameBytes
        code.validate restored
        code.emitAudit engine requestId .reverse (.original origType)
        return restored) := by
  -- a package is unwrapped in front of an empty pipeline only
  by_cases hraw : raw = true ∧ code.plugins.length = 0 ∧ data.length > 0
  · obtain ⟨htrue, hnil, hpos⟩ := hraw
    have hunwrapped := h htrue (List.length_eq_zero_iff.mp hnil)
    simp only [undoBody, if_pos (And.intro htrue (And.intro hnil hpos)), hunwrapped]
    rfl
  · simp only [undoBody, if_neg hraw]
    rfl

/-! ## Sample engines -/

/-- The two objects of a package that a plugin-less engine has made. -/
inductive SampleObject where
  | manifest
  | plugins
deriving DecidableEq, Repr

/-- `{ __pipex_v: 1, plugins: [], ts: 0 }`, and the buffer `68 69`. -/
def samplePackage : Bytes :=
  [0x83, 0xa9, 0x5f, 0x5f, 0x70, 0x69, 0x70, 0x65, 0x78, 0x5f, 0x76, 0x01,
    0xa7, 0x70, 0x6c, 0x75, 0x67, 0x69, 0x6e, 0x73, 0x90, 0xa2, 0x74, 0x73, 0x00,
    0xc4, 0x02, 0x68, 0x69]

/-- A host that reads this package, and ASCII. -/
def sampleHost : Host SampleObject where
  encodeUtf8 s := s.map fun unit => unit.toUInt8
  decodeUtf8 bytes := bytes.map fun byte => byte.toUInt16
  numberText _ := []
  bigintText _ := []
  toNumber _ := .other 0x7ff8000000000000
  toBigInt _ := none
  parseJson _ := none
  property
    | .manifest, "__pipex_v" => .number (.integer 1)
    | .manifest, "plugins" => .array .plugins
    | .manifest, "ts" => .number (.integer 0)
    | _, _ => .undefined
  elements _ := []
  viewLength _ := none
  pack _ := .error (plainError "unsupported value")
  unpack _ := none
  unpackMultiple bytes :=
    if bytes = samplePackage then ([.object .manifest, .buffer [0x68, 0x69]], true) else ([], false)

/-- A plugin that turns its input around, in both directions. -/
def turningPlugin (reversible : Declared) : Plugin where
  declaration := ⟨"turn", "1.0.0", reversible, .undefined, .own, true⟩
  retryOptions := none
  process _ _ data := .ok (some data.reverse)
  reverse _ _ data := .ok (some data.reverse)
  createStream _ _ chunks := Emit.push chunks.flatten.reverse

theorem turningPlugin_inverts (reversible : Declared) (limits : EngineLimits) :
    (turningPlugin reversible).Inverts limits := by
  intro ctx attempt data output _ h ctx' attempt' _
  cases h
  exact congrArg (fun data => Except.ok (some data)) (List.reverse_reverse data)

/-- A plugin that puts a byte behind its input, and takes the last one off again. -/
def markingPlugin : Plugin where
  declaration := ⟨"mark", "1.0.0", .undefined, .undefined, .own, true⟩
  retryOptions := none
  process _ _ data := .ok (some (data ++ [7]))
  reverse _ _ data := .ok (some data.dropLast)
  createStream mode _ chunks :=
    match mode with
    | .compress => Emit.push (chunks.flatten ++ [7])
    | .decompress => Emit.push chunks.flatten.dropLast

theorem markingPlugin_inverts (limits : EngineLimits) : markingPlugin.Inverts limits := by
  intro ctx attempt data output _ h ctx' attempt' _
  cases h
  exact congrArg (fun data => Except.ok (some data)) List.dropLast_concat

/-- Both of them, the turning one first. -/
def samplePlugins : List Plugin := [turningPlugin .undefined, markingPlugin]

theorem mem_samplePlugins {p : Plugin → Prop} (hturning : p (turningPlugin .undefined))
    (hmarking : p markingPlugin) : ∀ plugin ∈ samplePlugins, p plugin := by
  intro plugin hplugin
  rcases List.mem_cons.mp hplugin with rfl | hplugin
  · exact hturning
  · rw [List.mem_singleton.mp hplugin]
    exact hmarking

/-- An audit logger that takes no record of a certain kind. -/
def refusing (refused : AuditRecord → Bool) (record : AuditRecord) : Except JsError Unit :=
  if refused record then .error (plainError "audit store is full") else .ok ()

def sampleCode (plugins : List Plugin)
    (auditLogger : Option (AuditRecord → Except JsError Unit)) : EngineCode SampleObject :=
  ⟨sampleHost, plugins, none, auditLogger⟩

/-- The engine of some code, with nothing under way. -/
def sampleEngine (code : EngineCode SampleObject) : DataEngine where
  plugins := code.plugins.map Plugin.declaration
  limits := defaultLimits
  activeRequests := ∅
  pendingWork _ := none
  finishedRequests := ∅
  requestPipelines _ := none
  workSets _ _ := ∅
  createdSets := 0
  settledCallbacks := []

theorem sampleEngine_fresh (code : EngineCode SampleObject) (requestId : RequestId) :
    (sampleEngine code).Fresh requestId :=
  ⟨Finset.notMem_empty _, Finset.notMem_empty _, rfl, rfl⟩

theorem sampleCode_runsOn {plugins : List Plugin}
    {auditLogger : Option (AuditRecord → Except JsError Unit)} (hcount : plugins.length ≤ 256)
    (haccepted : ∀ plugin ∈ plugins, ∃ c, getPluginCapabilities plugin.declaration = .ok c) :
    (sampleCode plugins auditLogger).RunsOn (sampleEngine (sampleCode plugins auditLogger)) := by
  refine ⟨rfl, ?_, ?_⟩
  · simpa [sampleEngine, sampleCode] using hcount
  · intro plugin hplugin
    obtain ⟨p, hp, rfl⟩ := List.mem_map.mp hplugin
    exact haccepted p hp

/-! ## Inversion -/

/-- `undo(r.data, 'buffer')` behind a `run` that resolved, for plugins that can all
    be reversed: it resolves exactly if the result fits under the input limit and
    the input under the output limit, and then to the input. -/
theorem undo_run {engine engine' : DataEngine} (hruns : code.RunsOn engine)
    (hne : code.plugins ≠ []) (hinverts : ∀ plugin ∈ code.plugins, plugin.Inverts engine.limits)
    (hsupports : ∀ plugin ∈ code.plugins, supportsReverse plugin.declaration = .ok true)
    (hschema : code.schema = none) {requestId requestId' : RequestId}
    (hfresh : engine.Fresh requestId) (hfresh' : engine.Fresh requestId')
    (haudit : code.emitAudit (engine.started requestId') requestId' .reverse (.original .buffer) =
      .ok ()) {clock : Nat → Int} {b : Bytes} {r : LocalResult}
    (hrun : (code.run requestId clock (.buffer b)).run engine = .ok r engine') :
    (outcome ((code.undoRaw requestId' r.result.data .buffer).run engine') = .ok (.buffer b) ↔
        r.result.data.length ≤ engine.limits.maxInputBytes ∧
          b.length ≤ engine.limits.maxOutputBytes) ∧
      (outcome ((code.undoRaw requestId' r.result.data .buffer).run engine') ≠ .ok (.buffer b) →
        ∃ e, outcome ((code.undoRaw requestId' r.result.data .buffer).run engine') = .error e) := by
  obtain ⟨rfl, data, hran⟩ := run_ok hfresh hrun
  have hdata : data = b := by
    have := hran.encoded
    cases this
    rfl
  subst hdata
  have hreversible : assertReversiblePipeline engine'.plugins = .ok () := by
    rw [hruns.plugins]
    exact assertPipeline_declarations hsupports
  have hback := hran.reversed hne hinverts ⟨requestId', some .buffer, engine'.limits⟩ rfl
  have hvalid := code.validate_none hschema
  rw [undoRaw_outcome rfl, undoRequest_outcome hfresh' hran.slot, hreversible,
    undoBody_of_unwrapped _ (fun _ hnil => absurd hnil hne), started_limits, hback]
  -- the two limits that may still stop it
  by_cases hin : r.result.data.length ≤ engine'.limits.maxInputBytes
  · by_cases hout : data.length ≤ engine'.limits.maxOutputBytes
    · have hin' := Nat.not_lt_of_le hin
      have hout' := Nat.not_lt_of_le hout
      simp [hin', hout', hvalid, haudit, hin, hout, bind, Except.bind, pure, Except.pure]
    · have hin' := Nat.not_lt_of_le hin
      have hout' := Nat.lt_of_not_le hout
      simp [hin', hout', hout, bind, Except.bind]
  · have hin' := Nat.lt_of_not_le hin
    simp [hin', hin, bind, Except.bind, throw, throwThe, MonadExceptOf.throw]

/-- What is turned and then marked comes back through the two in reverse order. -/
theorem undo_run_turning :
    ∃ r e, ((sampleCode samplePlugins none).run 0 (fun _ => 0) (.buffer [1, 2])).run
        (sampleEngine (sampleCode samplePlugins none)) = .ok r e ∧ r.result.data = [2, 1, 7] ∧
      outcome (((sampleCode samplePlugins none).undoRaw 1 r.result.data .buffer).run e) =
        .ok (.buffer [1, 2]) := by
  obtain ⟨r, e, hrun, hdata⟩ : ∃ r e,
      ((sampleCode samplePlugins none).run 0 (fun _ => 0) (.buffer [1, 2])).run
        (sampleEngine (sampleCode samplePlugins none)) = .ok r e ∧
      r.result.data = [2, 1, 7] := ⟨_, _, rfl, rfl⟩
  refine ⟨r, e, hrun, hdata, (undo_run (sampleCode_runsOn ?_ ?_) ?_ ?_ ?_ rfl
    (sampleEngine_fresh _ 0) (sampleEngine_fresh _ 1) rfl hrun).1.mpr ?_⟩
  · decide
  · exact mem_samplePlugins ⟨_, rfl⟩ ⟨_, rfl⟩
  · exact List.cons_ne_nil _ _
  · exact mem_samplePlugins (turningPlugin_inverts .undefined _) (markingPlugin_inverts _)
  · exact mem_samplePlugins rfl rfl
  · -- the data of the result fits
    rw [hdata]
    decide

/-- A plugin that inverts but is declared irreversible, and an audit logger that
    refuses the record of the second call: `undo` rejects, whatever the sizes. -/
theorem undo_run_refused :
    ((∀ limits, (turningPlugin (.boolean false)).Inverts limits) ∧
      ∃ r e, ((sampleCode [turningPlugin (.boolean false)] none).run 0 (fun _ => 0)
            (.buffer [1, 2])).run (sampleEngine (sampleCode [turningPlugin (.boolean false)] none)) =
          .ok r e ∧
        r.result.data.length ≤ e.limits.maxInputBytes ∧
        ([1, 2] : Bytes).length ≤ e.limits.maxOutputBytes ∧
        outcome (((sampleCode [turningPlugin (.boolean false)] none).undoRaw 1 r.result.data
            .buffer).run e) = .error (unsupportedReverseError "turn@1.0.0")) ∧
    ((∀ limits, (turningPlugin .undefined).Inverts limits) ∧
      ∃ r e, ((sampleCode [turningPlugin .undefined] (some (refusing (·.operation = .reverse)))).run 0
            (fun _ => 0) (.buffer [1, 2])).run
              (sampleEngine (sampleCode [turningPlugin .undefined] none)) = .ok r e ∧
        r.result.data.length ≤ e.limits.maxInputBytes ∧
        ([1, 2] : Bytes).length ≤ e.limits.maxOutputBytes ∧
        outcome (((sampleCode [turningPlugin .undefined]
            (some (refusing (·.operation = .reverse)))).undoRaw 1 r.result.data .buffer).run e) =
          .error (plainError "audit store is full")) := by
  refine ⟨⟨turningPlugin_inverts _, _, _, rfl, ?_, ?_, ?_⟩,
    ⟨turningPlugin_inverts _, _, _, rfl, ?_, ?_, ?_⟩⟩
  · decide
  · decide
  · rfl
  · decide
  · decide
  · rfl

/-! ## The overloads of `undo` -/

theorem isDuration_sub {clock : Nat → Int} (hclock : Monotone clock) {i j : Nat} (h : i ≤ j) :
    isDuration (.integer (clock j - clock i)) = true := by
  have hle : clock i ≤ clock j := hclock h
  simp only [isDuration, JsDouble.isFinite, JsDouble.isNegative, Bool.true_and,
    Bool.not_eq_true', decide_eq_false_iff_not]
  omega

/-- A clock that does not go back measures durations. -/
theorem processPlugins_steps {ctx : ProcessorContext} {clock : Nat → Int} (hclock : Monotone clock)
    {reading : Nat} {plugins : List Plugin} {data out : Bytes}
    {steps steps' : List (String × JsDouble)} (hsteps : ∀ step ∈ steps, isDuration step.2 = true)
    (h : processPlugins ctx clock reading plugins data steps = .ok (out, steps')) :
    ∀ step ∈ steps', isDuration step.2 = true := by
  induction plugins generalizing reading data steps with
  | nil =>
    cases h
    exact hsteps
  | cons plugin plugins ih =>
    simp only [processPlugins] at h
    obtain ⟨output, -, h⟩ := bind_ok h
    refine ih ?_ h
    intro step hstep
    -- an older entry, or that of this plugin
    rcases List.mem_append.mp hstep with hold | hnew
    · exact hsteps step (List.mem_of_mem_filter hold)
    · rw [List.mem_singleton.mp hnew]
      exact isDuration_sub hclock (Nat.le_succ reading)

/-- A result in order is decoded as its own type. -/
theorem resolveTrustedType_self {result : EngineResult} (hresult : assertEngineResult result = .ok ())
    (hsupported : assertOriginalType result.originalType = .ok ()) :
    resolveTrustedType result none (some result.originalType) = .ok result.originalType := by
  have hself : (none <|> some result.originalType : Option TypeName) = some result.originalType := rfl
  simp [resolveTrustedType, hresult, hsupported, hself, bind, Except.bind, pure, Except.pure]

/-- A result of `run` passes the checks of `undo`, as the type it was made from. -/
theorem Ran.resolveTrustedType {engine : DataEngine} {requestId : RequestId} {clock : Nat → Int}
    {input : Value Obj} {r : LocalResult} {data : Bytes}
    (h : Ran code engine requestId clock input r data) (hruns : code.RunsOn engine)
    (hclock : Monotone clock) (hids : ∀ id ∈ engine.pipeline, utf16Length id ≤ 512) :
    resolveTrustedType r.result none (some r.trustedType) = .ok (detectType input) := by
  have hcount : r.result.pipeline.length ≤ 256 := by
    rw [h.pipeline, DataEngine.pipeline, List.length_map]
    exact hruns.count
  have hduration : isDuration r.result.durationMs = true := by
    rw [h.durationMs]
    exact isDuration_sub hclock (Nat.zero_le _)
  have hsteps := processPlugins_steps hclock (by simp) h.processed
  -- the result is well formed, so its own type is trusted
  have hresult : assertEngineResult r.result = .ok () := by
    apply if_pos
    rw [h.pipeline] at hcount ⊢
    exact ⟨hcount, hids, hduration, hsteps⟩
  have htrusted : r.trustedType = r.result.originalType := by rw [h.trustedType, h.originalType]
  have hsupported := h.supported
  rw [← h.originalType] at hsupported ⊢
  rw [htrusted]
  exact resolveTrustedType_self hresult hsupported

/-- The two overloads on a result of `run`, where no package is taken apart. -/
theorem Ran.undo_agree {engine : DataEngine} {requestId resultId rawId : RequestId}
    {clock : Nat → Int} {input : Value Obj} {r : LocalResult} {data : Bytes}
    (hran : Ran code engine requestId clock input r data) (hruns : code.RunsOn engine)
    (hinverts : ∀ plugin ∈ code.plugins, plugin.Inverts engine.limits)
    (hresultId : engine.Fresh resultId) (hrawId : engine.Fresh rawId) (hclock : Monotone clock)
    (hids : ∀ id ∈ engine.pipeline, utf16Length id ≤ 512)
    (hunwrapped : code.plugins = [] →
      code.unwrapPackage engine.limits (detectType input) r.result.data = .ok r.result.data)
    (haudit : Agree
      (code.emitAudit (engine.started resultId) resultId .reverse (.original r.result.originalType))
      (code.emitAudit (engine.started rawId) rawId .reverse (.original r.result.originalType))) :
    Agree (outcome ((code.undoResult resultId r.result none (some r.trustedType)).run engine))
      (outcome ((code.undoRaw rawId r.result.data r.result.originalType).run engine)) := by
  have hresolved := hran.resolveTrustedType hruns hclock hids
  have hresult : outcome ((code.undoResult resultId r.result none (some r.trustedType)).run engine) =
      outcome ((code.undoRequest resultId false (detectType input) r.result.data).run engine) := by
    simp only [undoResult, EStateM.run_bind, hresolved, check, EStateM.run_pure]
  rw [hran.originalType] at haudit ⊢
  rw [hresult, undoRaw_outcome hran.supported, undoRequest_outcome hresultId hran.slot,
    undoRequest_outcome hrawId hran.slot,
    undoBody_of_unwrapped _ (fun htrue => absurd htrue (by decide)),
    undoBody_of_unwrapped (engine.started rawId) (fun _ => hunwrapped), started_limits, started_limits]
  have hback : reversePlugins ⟨resultId, some (detectType input), engine.limits⟩ code.plugins
      r.result.data = reversePlugins ⟨rawId, some (detectType input), engine.limits⟩ code.plugins
      r.result.data := by
    by_cases hnil : code.plugins = []
    · rw [hnil]
      rfl
    · rw [hran.reversed hnil hinverts _ rfl, hran.reversed hnil hinverts _ rfl]
  rw [hback]
  -- only the audit records of the two calls differ
  refine agree_bind (agree_refl _) fun _ _ => ?_
  split
  · rfl
  refine agree_bind (agree_refl _) fun out _ => ?_
  split
  · rfl
  refine agree_bind (agree_refl _) fun restored _ => ?_
  refine agree_bind (agree_refl _) fun _ _ => ?_
  exact agree_bind haudit fun _ _ => agree_refl _

/-- A plugin-less engine gives back a buffer that is no package. -/
theorem Ran.undoRaw_buffer {engine : DataEngine} {requestId rawId : RequestId} {clock : Nat → Int}
    {b data : Bytes} {r : LocalResult} (hran : Ran code engine requestId clock (.buffer b) r data)
    (hruns : code.RunsOn engine) (hnil : code.plugins = []) (hrawId : engine.Fresh rawId)
    (hunwrapped : code.unwrapPackage engine.limits .buffer r.result.data = .ok r.result.data)
    (haudit : code.emitAudit (engine.started rawId) rawId .reverse (.original .buffer) = .ok ()) :
    outcome ((code.undoRaw rawId r.result.data .buffer).run engine) = .ok (.buffer b) := by
  have hdata : data = b := by
    have := hran.encoded
    cases this
    rfl
  -- without plugins the input is handed on as it is
  have hresult : r.result.data = b := by
    have hprocessed := hran.processed
    rw [hnil, hdata] at hprocessed
    exact (Prod.mk.inj (Except.ok.inj hprocessed)).1.symm
  have hreversible : assertReversiblePipeline engine.plugins = .ok () := by
    rw [hruns.plugins, hnil]
    rfl
  have hinput := Nat.not_lt_of_le hran.input_le
  have houtput := Nat.not_lt_of_le hran.output_le
  have hvalidated := hran.validated
  rw [undoRaw_outcome rfl, undoRequest_outcome hrawId hran.slot,
    undoBody_of_unwrapped (engine.started rawId) (fun _ _ => hunwrapped), started_limits,
    hreversible, hnil]
  rw [hdata] at hinput
  rw [hresult] at houtput ⊢
  simp [reversePlugins, hinput, houtput, hvalidated, haudit, bind, Except.bind, pure, Except.pure]

/-- The two overloads agree on a result of `run`, unless a plugin-less engine finds a
    package in its data; a buffer that is none comes back from such an engine. -/
theorem undo_overloads {engine engine' : DataEngine} (hruns : code.RunsOn engine)
    (hinverts : ∀ plugin ∈ code.plugins, plugin.Inverts engine.limits)
    {requestId resultId rawId : RequestId}
    (hfresh : engine.Fresh requestId) (hresultId : engine.Fresh resultId)
    (hrawId : engine.Fresh rawId) {clock : Nat → Int} {input : Value Obj} {r : LocalResult}
    (hrun : (code.run requestId clock input).run engine = .ok r engine')
    (hclock : Monotone clock) (hids : ∀ id ∈ engine.pipeline, utf16Length id ≤ 512)
    (hpackage : code.plugins = [] → ∀ package,
      code.unpackWithManifest engine.limits r.result.data ≠ .ok package)
    (haudit : Agree
      (code.emitAudit (engine.started resultId) resultId .reverse (.original r.result.originalType))
      (code.emitAudit (engine.started rawId) rawId .reverse (.original r.result.originalType))) :
    Agree (outcome ((code.undoResult resultId r.result none (some r.trustedType)).run engine'))
        (outcome ((code.undoRaw rawId r.result.data r.result.originalType).run engine')) ∧
      ∀ b, code.plugins = [] → input = .buffer b →
        code.emitAudit (engine.started rawId) rawId .reverse (.original .buffer) = .ok () →
        outcome ((code.undoRaw rawId r.result.data .buffer).run engine') = .ok (.buffer b) := by
  obtain ⟨rfl, data, hran⟩ := run_ok hfresh hrun
  -- what does not look like a package is not unwrapped
  have hunwrapped : code.plugins = [] →
      code.unwrapPackage engine'.limits (detectType input) r.result.data = .ok r.result.data := by
    intro hnil
    unfold unwrapPackage
    split
    · rfl
    · rename_i hok
      exact absurd hok (hpackage hnil _)
  refine ⟨hran.undo_agree hruns hinverts hresultId hrawId hclock hids hunwrapped haudit, ?_⟩
  rintro b hnil rfl haccepted
  exact hran.undoRaw_buffer hruns hnil hrawId (hunwrapped hnil) haccepted

/-- Two bytes through two plugins, back by both overloads, and three bytes that are no
    package, in a plugin-less engine. -/
theorem undo_overloads_sample :
    (∃ r e, ((sampleCode samplePlugins none).run 0 (fun _ => 0) (.buffer [1, 2])).run
        (sampleEngine (sampleCode samplePlugins none)) = .ok r e ∧
      Agree (outcome (((sampleCode samplePlugins none).undoResult 1 r.result none
          (some r.trustedType)).run e))
        (outcome (((sampleCode samplePlugins none).undoRaw 2 r.result.data
          r.result.originalType).run e))) ∧
    ∃ r e, ((sampleCode [] none).run 0 (fun _ => 0) (.buffer [1, 2, 3])).run
        (sampleEngine (sampleCode [] none)) = .ok r e ∧
      outcome (((sampleCode [] none).undoRaw 2 r.result.data .buffer).run e) =
        .ok (.buffer [1, 2, 3]) := by
  constructor
  · obtain ⟨r, e, hrun⟩ : ∃ r e,
        ((sampleCode samplePlugins none).run 0 (fun _ => 0) (.buffer [1, 2])).run
          (sampleEngine (sampleCode samplePlugins none)) = .ok r e := ⟨_, _, rfl⟩
    refine ⟨r, e, hrun, (undo_overloads (sampleCode_runsOn ?_ ?_) ?_ (sampleEngine_fresh _ 0)
      (sampleEngine_fresh _ 1) (sampleEngine_fresh _ 2) hrun (fun _ _ _ => le_refl 0) ?_
      (fun hnil => absurd hnil (List.cons_ne_nil _ _)) (agree_refl _)).1⟩
    · decide
    · exact mem_samplePlugins ⟨_, rfl⟩ ⟨_, rfl⟩
    · exact mem_samplePlugins (turningPlugin_inverts .undefined _) (markingPlugin_inverts _)
    · decide
  · obtain ⟨r, e, hrun, hdata⟩ : ∃ r e,
        ((sampleCode [] none).run 0 (fun _ => 0) (.buffer [1, 2, 3])).run
          (sampleEngine (sampleCode [] none)) = .ok r e ∧ r.result.data = [1, 2, 3] :=
      ⟨_, _, rfl, rfl⟩
    refine ⟨r, e, hrun, (undo_overloads (sampleCode_runsOn ?_ ?_) ?_ (sampleEngine_fresh _ 0)
      (sampleEngine_fresh _ 1) (sampleEngine_fresh _ 2) hrun (fun _ _ _ => le_refl 0) ?_ ?_
      (agree_refl _)).2 [1, 2, 3] rfl rfl rfl⟩
    · decide
    · intro plugin hplugin
      cases hplugin
    · intro plugin hplugin
      cases hplugin
    · intro id hid
      cases hid
    · intro _ package h
      rw [hdata] at h
      cases h

/-- A buffer that is itself a package comes back from one overload only, and so does
    any value where the audit logger accepts only one of the two calls. -/
theorem undo_overloads_differ :
    (∃ r e, ((sampleCode [] none).run 0 (fun _ => 0) (.buffer samplePackage)).run
          (sampleEngine (sampleCode [] none)) = .ok r e ∧
      outcome (((sampleCode [] none).undoResult 1 r.result none (some r.trustedType)).run e) =
        .ok (.buffer samplePackage) ∧
      outcome (((sampleCode [] none).undoRaw 2 r.result.data r.result.originalType).run e) =
        .ok (.buffer [0x68, 0x69])) ∧
    ∃ r e, ((sampleCode [] (some (refusing (·.requestId = 2)))).run 0 (fun _ => 0)
          (.buffer [1, 2, 3])).run (sampleEngine (sampleCode [] none)) = .ok r e ∧
      outcome (((sampleCode [] (some (refusing (·.requestId = 2)))).undoResult 1 r.result none
        (some r.trustedType)).run e) = .ok (.buffer [1, 2, 3]) ∧
      outcome (((sampleCode [] (some (refusing (·.requestId = 2)))).undoRaw 2 r.result.data
          r.result.originalType).run e) = .error (plainError "audit store is full") := by
  refine ⟨⟨_, _, rfl, ?_, ?_⟩, ⟨_, _, rfl, ?_, ?_⟩⟩
  all_goals rfl

end EngineCode
end PipeX
