/-
  PipeX.Core.Controllers.StreamAgreement

  `pipe` beside `run` and `undo`.

  * `pipe_outcome` and `run_outcome` — what the two come to, on an engine with or
    without a free slot.
  * `pipe_agrees` — with plugins that stream as they process, a stream and a buffer
    come to the same, in both directions.
-/
import PipeX.Core.Controllers.BinaryInversion
import PipeX.Core.Controllers.StreamController

namespace PipeX

open DataEngine Outcomes Chunked

namespace EngineCode

variable {Obj : Type} {code : EngineCode Obj}

/-- The audit logger takes the records of an operation, or it takes none of them. -/
def AuditsAlike (code : EngineCode Obj) (engine : DataEngine) : Prop :=
  ∀ operation requestId requestId' metadata metadata',
    Agree (code.emitAudit (engine.started requestId) requestId operation metadata)
      (code.emitAudit (engine.started requestId') requestId' operation metadata')

theorem pipe_outcome {engine : DataEngine} {requestId : RequestId} (hfresh : engine.Fresh requestId)
    (hschema : code.schema = none) (reverse : Bool) (source : List Bytes) :
    outcome ((code.pipe requestId reverse source).run engine) =
      slotted engine (code.pipeBody requestId reverse source (engine.started requestId)) := by
  have hpipe : (code.pipe requestId reverse source).run engine =
      (request requestId id (code.pipeBody requestId reverse source)).run engine := by
    simp only [pipe, hschema]
    rfl
  rw [hpipe, request_outcome hfresh rfl]

theorem run_outcome {engine : DataEngine} {requestId : RequestId} (hfresh : engine.Fresh requestId)
    (clock : Nat → Int) (b : Bytes) :
    outcome ((code.run requestId clock (.buffer b)).run engine) =
      slotted engine (code.runBody requestId clock .buffer (.buffer b) (engine.started requestId)) := by
  have hrun : (code.run requestId clock (.buffer b)).run engine =
      (request requestId (·.releaseRequest requestId)
        (code.runBody requestId clock .buffer (.buffer b))).run engine := rfl
  rw [hrun, request_outcome hfresh hfresh.release]

/-! ## Both as functions of the whole -/

/-- Limit, plugins, limit, audit record. -/
def wholeBody (limits : EngineLimits) (plugins : Bytes → Except JsError Bytes)
    (audit : Except JsError Unit) (data : Bytes) : Except JsError Bytes := do
  let data ← limitBytes limits.maxInputBytes "input" data
  let data ← plugins data
  let data ← limitBytes limits.maxOutputBytes "output" data
  audit
  return data

theorem pipeBody_agree {requestId : RequestId} {reverse : Bool} {source : List Bytes}
    {engine : DataEngine} {stages : List (Stage UInt8 JsError)}
    {f : Bytes → Except JsError Bytes}
    (hchain : buildTransformChain code.plugins (streamMode reverse) reverse
      ⟨requestId, engine.limits⟩ = .ok stages) (hrealizes : Realizes stages f) :
    Agree ((code.pipeBody requestId reverse source engine).map List.flatten)
      (wholeBody engine.limits f (code.emitAudit engine requestId
        (if reverse then .reverse else .process) .stream) source.flatten) := by
  -- the row of stages, between the two byte limits
  have hrow := realizes_append
    (realizes_append (byteLimit_computes engine.limits.maxInputBytes "input").realizes hrealizes)
    (byteLimit_computes engine.limits.maxOutputBytes "output").realizes
  have hpieces := pieces_check (hrow source)
    (code.emitAudit engine requestId (if reverse then .reverse else .process) .stream)
  have hbody : code.pipeBody requestId reverse source engine =
      (runStages ([(buildByteLimitTransform engine.limits.maxInputBytes "input").complete 0] ++
        stages ++ [(buildByteLimitTransform engine.limits.maxOutputBytes "output").complete 0])
          source >>= fun out =>
        code.emitAudit engine requestId (if reverse then .reverse else .process) .stream >>=
          fun _ => pure out) := by
    simp only [pipeBody, hchain]
    rfl
  rw [hbody]
  simpa only [wholeBody, bind_assoc, Pieces] using hpieces

/-- The loop of `run` without its clock. -/
theorem processPlugins_data (ctx : ProcessorContext) (clock : Nat → Int) (reading : Nat)
    (plugins : List Plugin) (data : Bytes) (steps : List (String × JsDouble)) :
    (processPlugins ctx clock reading plugins data steps).map Prod.fst =
      plugins.foldlM (fun data plugin => callPlugin ctx plugin plugin.process data) data := by
  induction plugins generalizing reading data steps with
  | nil => rfl
  | cons plugin plugins ih =>
    rw [List.foldlM_cons, processPlugins]
    cases callPlugin ctx plugin plugin.process data with
    | error e => rfl
    | ok output => exact ih _ output _

theorem runBody_agree (hschema : code.schema = none) {requestId : RequestId} (clock : Nat → Int)
    (engine : DataEngine) (b : Bytes) :
    Agree ((code.runBody requestId clock .buffer (.buffer b) engine).map (·.result.data))
      (wholeBody engine.limits
        (fun data => code.plugins.foldlM (fun data plugin =>
          callPlugin ⟨requestId, some .buffer, engine.limits⟩ plugin plugin.process data) data)
        (code.emitAudit engine requestId .process (.input .buffer
          (.integer (clock (2 * code.plugins.length + 1) - clock 0)))) b) := by
  have hvalid := code.validate_none hschema (.buffer b)
  have hknown : assertKnownValueByteLimit code.host (.buffer b) engine.limits.maxInputBytes "Input" =
      if b.length > engine.limits.maxInputBytes then
        .error (plainError s!"[PipeX] Input exceeds {engine.limits.maxInputBytes} bytes")
      else
        .ok () := rfl
  by_cases hin : b.length > engine.limits.maxInputBytes
  · simp only [runBody, hvalid, hknown, if_pos hin, wholeBody, limitBytes_exceeds hin]
    exact True.intro
  -- a buffer is its own encoding, so the second check of the input passes too
  have hbody : code.runBody requestId clock .buffer (.buffer b) engine =
      processPlugins ⟨requestId, some .buffer, engine.limits⟩ clock 1 code.plugins b [] >>=
        fun processed => do
          if processed.1.length > engine.limits.maxOutputBytes then
            throw (plainError "[PipeX] Output exceeds configured limit")
          let durationMs := .integer (clock (2 * code.plugins.length + 1) - clock 0)
          code.emitAudit engine requestId .process (.input .buffer durationMs)
          return ⟨⟨processed.1, .buffer, engine.pipeline, durationMs, processed.2⟩, .buffer⟩ := by
    simp only [runBody, hvalid, hknown, if_neg hin, toBuffer]
    show (if b.length > engine.limits.maxInputBytes then _ else _) = _
    rw [if_neg hin]
    rfl
  have hdata := processPlugins_data ⟨requestId, some .buffer, engine.limits⟩ clock 1 code.plugins b []
  simp only [hbody, wholeBody, limitBytes_fits hin]
  -- the clock and the steps only stand in the result
  show Agree _ (code.plugins.foldlM _ b >>= _)
  rw [← hdata]
  cases processPlugins ⟨requestId, some .buffer, engine.limits⟩ clock 1 code.plugins b [] with
  | error e => exact True.intro
  | ok processed =>
    obtain ⟨data, steps⟩ := processed
    show Agree (Except.map _ (if data.length > engine.limits.maxOutputBytes then _ else _))
      (limitBytes engine.limits.maxOutputBytes "output" data >>= _)
    by_cases hout : data.length > engine.limits.maxOutputBytes
    · rw [if_pos hout, limitBytes_exceeds hout]
      exact True.intro
    · rw [if_neg hout, limitBytes_fits hout]
      cases code.emitAudit engine requestId .process
        (.input .buffer (.integer (clock (2 * code.plugins.length + 1) - clock 0))) with
      | error e => exact True.intro
      | ok u => rfl

theorem undoRaw_agree (hschema : code.schema = none) (hne : code.plugins ≠ [])
    {engine : DataEngine} (hreversible : assertReversiblePipeline engine.plugins = .ok ())
    {requestId : RequestId} (hfresh : engine.Fresh requestId) (b : Bytes) :
    Agree ((slotted engine (wholeBody engine.limits
        (reversePlugins ⟨requestId, some .buffer, engine.limits⟩ code.plugins)
        (code.emitAudit (engine.started requestId) requestId .reverse (.original .buffer)) b)).map
          Value.buffer)
      (outcome ((code.undoRaw requestId b .buffer).run engine)) := by
  have hvalid := code.validate_none hschema
  rw [undoRaw_outcome rfl, undoRequest_slotted hfresh, hreversible]
  show Agree _ (if b.length > engine.limits.maxInputBytes then _ else _)
  by_cases hin : b.length > engine.limits.maxInputBytes
  · rw [if_pos hin]
    simp only [wholeBody, limitBytes_exceeds hin, slotted]
    split
    all_goals exact True.intro
  -- with a plugin there is no package to unwrap
  rw [if_neg hin, undoBody_of_unwrapped _ (fun _ hnil => absurd hnil hne), started_limits]
  simp only [wholeBody, limitBytes_fits hin, slotted]
  split
  · exact True.intro
  show Agree (Except.map _ (reversePlugins _ code.plugins b >>= _)) (reversePlugins _ _ b >>= _)
  cases reversePlugins ⟨requestId, some .buffer, engine.limits⟩ code.plugins b with
  | error e => exact True.intro
  | ok data =>
    show Agree (Except.map _ (limitBytes engine.limits.maxOutputBytes "output" data >>= _))
      (if data.length > engine.limits.maxOutputBytes then _ else _)
    by_cases hout : data.length > engine.limits.maxOutputBytes
    · rw [if_pos hout, limitBytes_exceeds hout]
      exact True.intro
    · rw [if_neg hout, limitBytes_fits hout]
      simp only [fromBuffer, hvalid]
      cases code.emitAudit (engine.started requestId) requestId .reverse (.original .buffer) with
      | error e => exact True.intro
      | ok u => rfl

/-! ## Agreement -/

theorem wholeBody_agree {limits : EngineLimits} {f : Bytes → Except JsError Bytes}
    {audit audit' : Except JsError Unit} (haudit : Agree audit audit') (data : Bytes) :
    Agree (wholeBody limits f audit data) (wholeBody limits f audit' data) := by
  refine agree_bind (agree_refl _) fun _ _ => ?_
  refine agree_bind (agree_refl _) fun _ _ => ?_
  refine agree_bind (agree_refl _) fun _ _ => ?_
  exact agree_bind haudit fun _ _ => agree_refl _

theorem slotted_agree {α : Type} {engine : DataEngine} {x y : Except JsError α} (h : Agree x y) :
    Agree (slotted engine x) (slotted engine y) := by
  simp only [slotted]
  split
  · exact True.intro
  · exact h

theorem slotted_map {α β : Type} (engine : DataEngine) (x : Except JsError α) (f : α → β) :
    (slotted engine x).map f = slotted engine (x.map f) := by
  simp only [slotted]
  split
  · rfl
  · rfl

/-- A stream in one direction: what calling the plugins in its order comes to. -/
theorem pipe_agree {engine : DataEngine} (hruns : code.RunsOn engine) (hschema : code.schema = none)
    (hnative : ∀ plugin ∈ code.plugins, plugin.StreamsNatively engine.limits)
    (hretry : ∀ plugin ∈ code.plugins, checkRetryOptions plugin.retryOptions engine.limits = .ok ())
    (reverse : Bool)
    (hreverse : reverse = true →
      ∀ plugin ∈ code.plugins, supportsReverse plugin.declaration = .ok true)
    {requestId : RequestId} (hfresh : engine.Fresh requestId) (ctx : ProcessorContext)
    (hlimits : ctx.limits = engine.limits) {audit : Except JsError Unit}
    (haudit : Agree (code.emitAudit (engine.started requestId) requestId
      (if reverse then .reverse else .process) .stream) audit) (source : List Bytes) :
    Agree ((outcome ((code.pipe requestId reverse source).run engine)).map List.flatten)
      (slotted engine (wholeBody engine.limits
        (fun data => (if reverse then code.plugins.reverse else code.plugins).foldlM
          (fun data plugin => callPlugin ctx plugin (plugin.function reverse) data) data)
        audit source.flatten)) := by
  -- `use` has taken the plugins
  have haccepted : ∀ plugin ∈ code.plugins, ∃ c,
      getPluginCapabilities plugin.declaration = .ok c := by
    intro plugin hplugin
    apply hruns.accepted
    rw [hruns.plugins]
    exact List.mem_map_of_mem hplugin
  -- so the chain can be built, and each stage is its plugin
  obtain ⟨stages, hchain, hrealizes⟩ := buildTransformChain_realizes
    (show (⟨requestId, engine.limits⟩ : StreamPluginContext).limits = ctx.limits from hlimits.symm)
    haccepted (by rw [hlimits]; exact hnative) (by rw [hlimits]; exact hretry) hreverse
  rw [pipe_outcome hfresh hschema, slotted_map]
  apply slotted_agree
  exact agree_trans (pipeBody_agree hchain hrealizes) (wholeBody_agree haudit _)

/-- `pipe` delivers what `run` resolves to, and rejects where it rejects; reversed, it
    delivers what `undo` resolves to, and rejects where it rejects. -/
theorem pipe_agrees {engine : DataEngine} (hruns : code.RunsOn engine) (hschema : code.schema = none)
    (hnative : ∀ plugin ∈ code.plugins, plugin.StreamsNatively engine.limits)
    (hretry : ∀ plugin ∈ code.plugins, checkRetryOptions plugin.retryOptions engine.limits = .ok ())
    (haudit : code.AuditsAlike engine) {runId undoId pipeId : RequestId}
    (hrunId : engine.Fresh runId) (hundoId : engine.Fresh undoId) (hpipeId : engine.Fresh pipeId)
    (clock : Nat → Int) (source : List Bytes) :
    Agree ((outcome ((code.pipe pipeId false source).run engine)).map List.flatten)
        ((outcome ((code.run runId clock (.buffer source.flatten)).run engine)).map
          (·.result.data)) ∧
      (code.plugins ≠ [] →
        (∀ plugin ∈ code.plugins, supportsReverse plugin.declaration = .ok true) →
        Agree ((outcome ((code.pipe pipeId true source).run engine)).map fun delivered =>
            Value.buffer delivered.flatten)
          (outcome ((code.undoRaw undoId source.flatten .buffer).run engine))) := by
  constructor
  -- forth: the plugins in order, against `run`
  · rw [run_outcome hrunId, slotted_map]
    have hpipe := pipe_agree hruns hschema hnative hretry false (fun h => by cases h) hpipeId
      ⟨runId, some .buffer, engine.limits⟩ rfl (haudit .process pipeId runId _
        (.input .buffer (.integer (clock (2 * code.plugins.length + 1) - clock 0)))) source
    refine agree_trans hpipe (slotted_agree (agree_symm ?_))
    exact runBody_agree hschema clock (engine.started runId) source.flatten
  -- back: in reverse order, against `undo` of the raw bytes
  · intro hne hsupports
    have hreversible : assertReversiblePipeline engine.plugins = .ok () := by
      rw [hruns.plugins]
      exact assertPipeline_declarations hsupports
    have hpipe := pipe_agree hruns hschema hnative hretry true (fun _ => hsupports) hpipeId
      ⟨undoId, some .buffer, engine.limits⟩ rfl (haudit .reverse pipeId undoId _ (.original .buffer))
      source
    have hmap : ∀ delivered : Except JsError (List Bytes),
        delivered.map (fun chunks => Value.buffer chunks.flatten) =
          (delivered.map List.flatten).map (@Value.buffer Obj) :=
      fun delivered => (Functor.map_map List.flatten Value.buffer delivered).symm
    rw [hmap]
    exact agree_trans (agree_map hpipe _) (undoRaw_agree hschema hne hreversible hundoId source.flatten)

/-- The turning plugin with other retry options. -/
def retryingPlugin (retryOptions : Option DeclaredRetryOptions) : Plugin :=
  { turningPlugin .undefined with retryOptions }

theorem retryingPlugin_streamsNatively (retryOptions : Option DeclaredRetryOptions)
    (limits : EngineLimits) : (retryingPlugin retryOptions).StreamsNatively limits := by
  refine ⟨rfl, fun reverse context ctx attempt _ _ chunks => ?_⟩
  cases reverse
  all_goals exact Emit.delivers_ok rfl (List.append_nil _)

theorem markingPlugin_streamsNatively (limits : EngineLimits) :
    markingPlugin.StreamsNatively limits := by
  refine ⟨rfl, fun reverse context ctx attempt _ _ chunks => ?_⟩
  cases reverse
  all_goals exact Emit.delivers_ok rfl (List.append_nil _)

/-- Two chunks turned and marked, and what the reversed chain makes of the same
    chunks. -/
theorem pipe_agrees_turning :
    (outcome (((sampleCode samplePlugins none).pipe 1 false [[2, 1], [7]]).run
        (sampleEngine (sampleCode samplePlugins none)))).map List.flatten = .ok [7, 1, 2, 7] ∧
    (outcome (((sampleCode samplePlugins none).pipe 1 true [[2, 1], [7]]).run
        (sampleEngine (sampleCode samplePlugins none)))).map
          (fun delivered => @Value.buffer SampleObject delivered.flatten) =
      .ok (.buffer [1, 2]) := by
  have hruns : (sampleCode samplePlugins none).RunsOn
      (sampleEngine (sampleCode samplePlugins none)) :=
    sampleCode_runsOn (by decide) (mem_samplePlugins ⟨_, rfl⟩ ⟨_, rfl⟩)
  obtain ⟨hforth, hback⟩ := pipe_agrees hruns rfl
    (mem_samplePlugins (retryingPlugin_streamsNatively none _) (markingPlugin_streamsNatively _))
    (mem_samplePlugins (checkRetryOptions_none defaultLimits_valid)
      (checkRetryOptions_none defaultLimits_valid))
    (fun _ _ _ _ _ => agree_refl _) (sampleEngine_fresh _ 0) (sampleEngine_fresh _ 2)
    (sampleEngine_fresh _ 1) (fun _ => 0) [[2, 1], [7]]
  exact ⟨agree_ok hforth, agree_ok (hback (List.cons_ne_nil _ _) (mem_samplePlugins rfl rfl))⟩

/-- A plugin whose retry options are out of range streams, but cannot be called; an
    audit logger that takes no record of a stream lets `run` resolve. -/
theorem pipe_disagrees :
    ((∀ limits, (retryingPlugin (some ⟨some (.integer 0), none⟩)).StreamsNatively limits) ∧
      outcome (((sampleCode [retryingPlugin (some ⟨some (.integer 0), none⟩)] none).pipe 1 false
          [[1], [2]]).run (sampleEngine (sampleCode [turningPlugin .undefined] none))) =
        .ok [[2, 1]] ∧
      outcome (((sampleCode [retryingPlugin (some ⟨some (.integer 0), none⟩)] none).run 1
          (fun _ => 0) (.buffer [1, 2])).run
            (sampleEngine (sampleCode [turningPlugin .undefined] none))) =
        .error (plainError "[PipeX] Invalid retry attempts: 0")) ∧
    ((∀ limits, (turningPlugin .undefined).StreamsNatively limits) ∧
      outcome (((sampleCode [turningPlugin .undefined]
          (some (refusing (·.metadata = .stream)))).pipe 1 false [[1], [2]]).run
        (sampleEngine (sampleCode [turningPlugin .undefined] none))) =
        .error (plainError "audit store is full") ∧
      (outcome (((sampleCode [turningPlugin .undefined]
          (some (refusing (·.metadata = .stream)))).run 1 (fun _ => 0) (.buffer [1, 2])).run
        (sampleEngine (sampleCode [turningPlugin .undefined] none)))).map (·.result.data) =
        .ok [2, 1]) := by
  refine ⟨⟨retryingPlugin_streamsNatively _, ?_, ?_⟩, retryingPlugin_streamsNatively none, ?_, ?_⟩
  all_goals rfl

end EngineCode
end PipeX
