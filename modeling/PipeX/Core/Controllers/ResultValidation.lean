/-
  PipeX.Core.Controllers.ResultValidation

  Which results of `run` the first check of `undo` takes, and which manifests
  `isManifest`.

  `use` bounds the name of a plugin and the number of plugins.  The version of a
  plugin and the readings of the clock are not bounded by anyone, and both come back
  in what is checked: `assertEngineResult_iff` and `isManifest_iff` are exact.
-/
import PipeX.Core.Controllers.BinaryInversion
import PipeX.Lib.Triple

namespace PipeX

open DataEngine Outcomes

/-! ## Strings -/

/-- The UTF-16 code units of a character. -/
def utf16Units (c : Char) : List UInt16 :=
  if c.toNat < 0x10000 then
    [UInt16.ofNat c.toNat]
  else
    [UInt16.ofNat (0xd800 + (c.toNat - 0x10000) / 0x400),
      UInt16.ofNat (0xdc00 + (c.toNat - 0x10000) % 0x400)]

def jsString (s : String) : JsString := s.toList.flatMap utf16Units

@[simp] theorem length_jsString (s : String) : (jsString s).length = utf16Length s := by
  rw [jsString, utf16Length, List.length_flatMap]
  congr 1
  apply List.map_congr_left
  intro c _
  simp only [utf16Units]
  split <;> rfl

@[simp] theorem utf16Length_append (s t : String) :
    utf16Length (s ++ t) = utf16Length s + utf16Length t := by
  simp [utf16Length, String.toList_append]

theorem utf16Length_id (plugin : ProcessorPlugin) :
    utf16Length plugin.id = utf16Length plugin.name + 1 + utf16Length plugin.version := by
  simp only [ProcessorPlugin.id]
  rw [utf16Length_append, utf16Length_append]
  rfl

/-! ## Plugins that `use` has taken -/

theorem use_ok {plugin : PluginValue} {engine engine' : DataEngine}
    (h : (use plugin).run engine = .ok () engine') :
    ∃ added, checkPlugin plugin = .ok added ∧ engine.plugins.length < 256 ∧
      engine'.plugins = engine.plugins ++ [added] := by
  rcases use_cases plugin engine with ⟨e, hfails⟩ | ⟨added, hcheck, -, hcount, hadded⟩
  · rw [hfails] at h
    cases h
  · rw [hadded] at h
    cases h
    exact ⟨added, hcheck, hcount, rfl⟩

/-- One after another, no more than 256 of them are taken. -/
theorem forM_use_count {values : List PluginValue} {engine used : DataEngine}
    (hcount : engine.plugins.length ≤ 256) (h : (values.forM use).run engine = .ok () used) :
    used.plugins.length ≤ 256 := by
  induction values generalizing engine with
  | nil =>
    cases h
    exact hcount
  | cons value values ih =>
    have hsteps : ((use value) >>= fun _ => values.forM use).run engine = .ok () used := h
    obtain ⟨_, engine', huse, hrest⟩ := run_bind_ok hsteps
    -- `use` has compared the number of plugins before it adds one
    obtain ⟨added, -, hlt, hplugins⟩ := use_ok huse
    refine ih ?_ hrest
    rw [hplugins, List.length_append]
    exact hlt

/-! ## Results -/

/-- What the loop of `run` records: a duration under the name of every plugin. -/
def recordedSteps (clock : Nat → Int) :
    (reading : Nat) → List String → List (String × JsDouble) → List (String × JsDouble)
  | _, [], steps => steps
  | reading, name :: names, steps =>
    recordedSteps clock (reading + 2) names
      (assign steps name (.integer (clock (reading + 1) - clock reading)))

/-- The clock does not go back during a plugin, unless a later plugin of the same name
    overwrites what has been recorded. -/
def StepsForward (clock : Nat → Int) : (reading : Nat) → List String → Prop
  | _, [] => True
  | reading, name :: names =>
    (name ∈ names ∨ clock reading ≤ clock (reading + 1)) ∧ StepsForward clock (reading + 2) names

theorem processPlugins_recorded {ctx : ProcessorContext} {clock : Nat → Int} {reading : Nat}
    {plugins : List Plugin} {data out : Bytes} {steps steps' : List (String × JsDouble)}
    (h : EngineCode.processPlugins ctx clock reading plugins data steps = .ok (out, steps')) :
    steps' = recordedSteps clock reading (plugins.map fun p => p.declaration.name) steps := by
  induction plugins generalizing reading data steps with
  | nil =>
    cases h
    rfl
  | cons plugin plugins ih =>
    obtain ⟨output, -, h⟩ := bind_ok h
    exact ih h

theorem isDuration_integer (n : Int) : isDuration (.integer n) = true ↔ 0 ≤ n := by
  simp [isDuration, JsDouble.isFinite, JsDouble.isNegative]

theorem assign_durations {steps : List (String × JsDouble)} {name : String} {value : JsDouble}
    {names : List String} :
    (∀ step ∈ assign steps name value, step.1 ∉ names → isDuration step.2 = true) ↔
      (∀ step ∈ steps, step.1 ∉ name :: names → isDuration step.2 = true) ∧
        (name ∉ names → isDuration value = true) := by
  simp only [assign, List.mem_append, List.mem_filter, decide_eq_true_eq, List.mem_cons,
    List.not_mem_nil, or_false, not_or]
  constructor
  · intro h
    exact ⟨fun step hstep hname => h step (.inl ⟨hstep, hname.1⟩) hname.2,
      fun hname => h (name, value) (.inr rfl) hname⟩
  · rintro ⟨hold, hnew⟩ step (⟨hstep, hne⟩ | rfl) hname
    · exact hold step hstep ⟨hne, hname⟩
    · exact hnew hname

/-- All that is recorded are durations exactly if the clock runs forward. -/
theorem recordedSteps_durations (clock : Nat → Int) (reading : Nat) (names : List String)
    (steps : List (String × JsDouble)) :
    (∀ step ∈ recordedSteps clock reading names steps, isDuration step.2 = true) ↔
      (∀ step ∈ steps, step.1 ∉ names → isDuration step.2 = true) ∧
        StepsForward clock reading names := by
  induction names generalizing reading steps with
  | nil => simp [recordedSteps, StepsForward]
  | cons name names ih =>
    rw [recordedSteps, ih, assign_durations, StepsForward, isDuration_integer, and_assoc]
    apply and_congr_right
    intro _
    apply and_congr_left
    intro _
    -- what a later plugin of this name overwrites does not count
    by_cases hname : name ∈ names
    · simp [hname]
    · simp [hname]

theorem assertEngineResult_ok_iff {result : EngineResult} :
    assertEngineResult result = .ok () ↔
      result.pipeline.length ≤ 256 ∧ (∀ id ∈ result.pipeline, utf16Length id ≤ 512) ∧
        isDuration result.durationMs ∧ ∀ step ∈ result.steps, isDuration step.2 := by
  simp only [assertEngineResult]
  split
  · exact iff_of_true rfl ‹_›
  · exact iff_of_false (by simp) ‹_›

variable {Obj : Type} {code : EngineCode Obj}

/-- A result of `run` passes the first check of `undo` exactly if no plugin identifier
    is too long for it and the clock has not gone back. -/
theorem EngineCode.Ran.assertEngineResult_iff {engine : DataEngine} {requestId : RequestId}
    {clock : Nat → Int} {input : Value Obj} {r : LocalResult} {data : Bytes}
    (h : EngineCode.Ran code engine requestId clock input r data)
    (hplugins : engine.plugins = code.plugins.map Plugin.declaration)
    (hcount : engine.plugins.length ≤ 256) :
    assertEngineResult r.result = .ok () ↔
      (∀ plugin ∈ engine.plugins, utf16Length plugin.id ≤ 512) ∧
        clock 0 ≤ clock (2 * engine.plugins.length + 1) ∧
        StepsForward clock 1 (engine.plugins.map ProcessorPlugin.name) := by
  have hnames : code.plugins.map (fun p => p.declaration.name) =
      engine.plugins.map ProcessorPlugin.name := by
    rw [hplugins, List.map_map]
    rfl
  have hlength : code.plugins.length = engine.plugins.length := by rw [hplugins, List.length_map]
  have hids : (∀ id ∈ r.result.pipeline, utf16Length id ≤ 512) ↔
      ∀ plugin ∈ engine.plugins, utf16Length plugin.id ≤ 512 := by
    rw [h.pipeline, DataEngine.pipeline]
    exact List.forall_mem_map
  have hsize : r.result.pipeline.length ≤ 256 := by
    rw [h.pipeline, DataEngine.pipeline, List.length_map]
    exact hcount
  have hsteps := processPlugins_recorded h.processed
  rw [hnames] at hsteps
  rw [assertEngineResult_ok_iff, hids, hsteps, recordedSteps_durations, h.durationMs,
    isDuration_integer, hlength]
  constructor
  · rintro ⟨-, hids, htotal, -, hforward⟩
    exact ⟨hids, by omega, hforward⟩
  · rintro ⟨hids, htotal, hforward⟩
    exact ⟨hsize, hids, by omega, by simp, hforward⟩

/-! ## Manifests -/

/-- `buildManifest(plugins)`, with the reading of `Date.now()`. -/
def buildManifest (plugins : List ProcessorPlugin) (now : Int) : PipeXManifest where
  plugins := plugins.map fun plugin => jsString plugin.id
  ts := .integer now

/-- An object literal holds what is written in it. -/
structure IsLiteral (host : Host Obj) (value : Value Obj) (manifest : PipeXManifest) : Prop where
  record : ∃ record list, value = .object record ∧
    host.property record "__pipex_v" = .number (.integer 1) ∧
    host.property record "plugins" = .array list ∧
    host.elements list = manifest.plugins.map Value.string ∧
    host.property record "ts" = .number manifest.ts

theorem mapM_pluginId (ids : List JsString) :
    ((ids.map Value.string : List (Value Obj)).mapM pluginId).isSome = true ↔
      ∀ id ∈ ids, id.length ≤ 256 := by
  induction ids with
  | nil => simp
  | cons id ids ih =>
    rw [List.map_cons, List.mapM_cons, List.forall_mem_cons, ← ih]
    by_cases hid : id.length ≤ 256
    · cases (ids.map Value.string : List (Value Obj)).mapM pluginId with
      | none => simp [pluginId, hid]
      | some rest => simp [pluginId, hid]
    · simp [pluginId, hid]

/-- What `buildManifest` returns is a manifest exactly if no plugin identifier is too
    long for one and the clock is behind its origin. -/
theorem isManifest_iff {host : Host Obj} {plugins : List ProcessorPlugin} {now : Int}
    {value : Value Obj} (hliteral : IsLiteral host value (buildManifest plugins now))
    (hcount : plugins.length ≤ 256) :
    isManifest host value = true ↔
      (∀ plugin ∈ plugins, utf16Length plugin.id ≤ 256) ∧ 0 ≤ now ∧ now ≤ maxSafeInteger := by
  obtain ⟨record, list, rfl, hversion, hplugins, helements, hts⟩ := hliteral.record
  have hids : ((host.elements list).mapM pluginId).isSome = true ↔
      ∀ plugin ∈ plugins, utf16Length plugin.id ≤ 256 := by
    rw [helements, mapM_pluginId, buildManifest, List.forall_mem_map]
    simp only [length_jsString]
  -- the list is as long as the list of plugins, and that is bounded
  have hlength : (host.elements list).length ≤ 256 := by
    rw [helements, List.length_map, buildManifest, List.length_map]
    exact hcount
  rw [isManifest, manifestOf]
  simp only [Value.record, hversion, hplugins, hts, buildManifest, hlength, JsDouble.isSafeNatural,
    true_and, decide_eq_true_eq]
  -- then the reading of the clock
  by_cases hnow : 0 ≤ now ∧ now ≤ maxSafeInteger
  · rw [if_pos hnow, Option.isSome_map, hids]
    simp [hnow]
  · simp [hnow]

/-! ## What the engine produces -/

/-- For plugins that `use` has taken one by one: the first check of `undo` takes a
    result of `run`, and `isManifest` a manifest of these plugins, exactly under the
    bounds on identifiers and clocks that nothing in front of them enforces. -/
theorem own_validators_accept {values : List PluginValue} {idle used engine : DataEngine}
    (hidle : idle.plugins = []) (huse : (values.forM use).run idle = .ok () used)
    (hengine : engine.plugins = used.plugins)
    (hcode : engine.plugins = code.plugins.map Plugin.declaration) {requestId : RequestId}
    (hfresh : engine.Fresh requestId) {literal : PipeXManifest → Value Obj}
    (hliteral : ∀ manifest, IsLiteral code.host (literal manifest) manifest) :
    (∀ clock input r engine', (code.run requestId clock input).run engine = .ok r engine' →
      (assertEngineResult r.result = .ok () ↔
        (∀ plugin ∈ engine.plugins, utf16Length plugin.id ≤ 512) ∧
          clock 0 ≤ clock (2 * engine.plugins.length + 1) ∧
          StepsForward clock 1 (engine.plugins.map ProcessorPlugin.name))) ∧
      ∀ now, isManifest code.host (literal (buildManifest engine.plugins now)) = true ↔
        (∀ plugin ∈ engine.plugins, utf16Length plugin.id ≤ 256) ∧ 0 ≤ now ∧
          now ≤ maxSafeInteger := by
  have hcount : engine.plugins.length ≤ 256 := by
    rw [hengine]
    exact forM_use_count (by rw [hidle]; exact Nat.zero_le _) huse
  refine ⟨fun clock input r engine' hrun => ?_, fun now => ?_⟩
  · -- a result is that of a run
    obtain ⟨-, data, hran⟩ := EngineCode.run_ok hfresh hrun
    exact hran.assertEngineResult_iff hcode hcount
  · exact isManifest_iff (hliteral _) hcount

/-! ## Samples -/

/-- Objects that are manifests, and the lists in them. -/
inductive ManifestObject where
  | record (manifest : PipeXManifest)
  | list (ids : List JsString)

def manifestHost : Host ManifestObject where
  encodeUtf8 _ := []
  decodeUtf8 _ := []
  numberText _ := []
  bigintText _ := []
  toNumber _ := .other 0x7ff8000000000000
  toBigInt _ := none
  parseJson _ := none
  property
    | .record _, "__pipex_v" => .number (.integer 1)
    | .record manifest, "plugins" => .array (.list manifest.plugins)
    | .record manifest, "ts" => .number manifest.ts
    | _, _ => .undefined
  elements
    | .list ids => ids.map Value.string
    | .record _ => []
  viewLength _ := none
  pack _ := .error (plainError "unsupported value")
  unpack _ := none
  unpackMultiple _ := ([], false)

theorem manifestHost_literal (manifest : PipeXManifest) :
    IsLiteral manifestHost (.object (.record manifest)) manifest :=
  ⟨_, _, rfl, rfl, rfl, rfl, rfl⟩

/-- What `use` is given for a plugin that turns its input around, in some version. -/
def versionValue (version : String) : PluginValue :=
  ⟨some "turn", some version, true, .undefined, .undefined, .own, true⟩

def versionPlugin (version : String) : Plugin :=
  { EngineCode.turningPlugin .undefined with
    declaration := ⟨"turn", version, .undefined, .undefined, .own, true⟩ }

def versionCode (version : String) : EngineCode ManifestObject :=
  ⟨manifestHost, [versionPlugin version], none, none⟩

/-- An engine of no plugin, and the one with this plugin. -/
def idleEngine : DataEngine := EngineCode.sampleEngine (EngineCode.sampleCode [] none)

def versionEngine (version : String) : DataEngine :=
  { idleEngine with plugins := [(versionPlugin version).declaration] }

theorem use_versionValue {version : String} (h : utf16Length version ≠ 0) :
    ([versionValue version].forM use).run idleEngine = .ok () (versionEngine version) := by
  -- the name is short and the version is not empty
  have hchecks : ¬ (utf16Length "turn" = 0 ∨ utf16Length "turn" > 128 ∨ utf16Length version = 0 ∨
      true = false) := by
    have hname : utf16Length "turn" = 4 := by decide
    rw [hname]
    simp [h]
  have hcheck : checkPlugin (versionValue version) = .ok (versionPlugin version).declaration :=
    if_neg hchecks
  have huse : (use (versionValue version)).run idleEngine = .ok () (versionEngine version) := by
    simp only [use, EStateM.run_bind, hcheck, check, EStateM.run_pure]
    rfl
  have hforM : [versionValue version].forM use = use (versionValue version) >>= fun _ => pure () :=
    rfl
  rw [hforM, EStateM.run_bind, huse]
  rfl

theorem versionEngine_fresh (version : String) (requestId : RequestId) :
    (versionEngine version).Fresh requestId :=
  ⟨Finset.notMem_empty _, Finset.notMem_empty _, rfl, rfl⟩

theorem run_version (version : String) :
    ∃ r e, ((versionCode version).run 0 (fun _ => 0) (.buffer [1, 2])).run (versionEngine version) =
        .ok r e ∧
      r.result.pipeline = [(versionPlugin version).declaration.id] :=
  ⟨⟨⟨[2, 1], .buffer, (versionEngine version).pipeline, .integer 0, [("turn", .integer 0)]⟩,
    .buffer⟩, _, rfl, rfl⟩

/-- A short version and a clock that stands still. -/
theorem own_validators_accept_short :
    (∃ r e, ((versionCode "1.0.0").run 0 (fun _ => 0) (.buffer [1, 2])).run
        (versionEngine "1.0.0") = .ok r e ∧ assertEngineResult r.result = .ok ()) ∧
      isManifest manifestHost
        (.object (.record (buildManifest (versionEngine "1.0.0").plugins 0))) = true := by
  obtain ⟨hresults, hmanifests⟩ :=
    @own_validators_accept _ (versionCode "1.0.0") _ idleEngine _ _ rfl
      (use_versionValue (by decide)) rfl rfl _ (versionEngine_fresh "1.0.0" 0)
      (fun manifest => .object (.record manifest)) manifestHost_literal
  obtain ⟨r, e, hrun, -⟩ := run_version "1.0.0"
  have hforward : StepsForward (fun _ => 0) 1 ["turn"] := ⟨.inr (Int.le_refl 0), trivial⟩
  refine ⟨⟨r, e, hrun, (hresults _ _ _ _ hrun).mpr ⟨by decide, by decide, hforward⟩⟩, ?_⟩
  exact (hmanifests 0).mpr ⟨by decide, by decide, by decide⟩

theorem utf16Length_replicate (n : Nat) :
    utf16Length (String.ofList (List.replicate n 'x')) = n := by
  simp [utf16Length, String.toList_ofList]

/-- A version of 600 characters: `use` takes the plugin, and neither validator takes
    what the engine makes. -/
theorem long_version_refused :
    ∃ version r e,
      ([versionValue version].forM use).run idleEngine = .ok () (versionEngine version) ∧
      ((versionCode version).run 0 (fun _ => 0) (.buffer [1, 2])).run (versionEngine version) =
        .ok r e ∧
      assertEngineResult r.result = .error (plainError "[PipeX] Invalid EngineResult") ∧
      isManifest manifestHost
        (.object (.record (buildManifest (versionEngine version).plugins 0))) = false := by
  let version := String.ofList (List.replicate 600 'x')
  have hlength : utf16Length version = 600 := utf16Length_replicate 600
  have hid : 512 < utf16Length (versionPlugin version).declaration.id := by
    have hversion : utf16Length (versionPlugin version).declaration.version = 600 := hlength
    rw [utf16Length_id, hversion]
    omega
  obtain ⟨r, e, hrun, hpipeline⟩ := run_version version
  refine ⟨version, r, e, use_versionValue (by omega), hrun, ?_, ?_⟩
  · -- the identifier in `pipeline` is longer than 512
    apply if_neg
    rintro ⟨-, hids, -⟩
    rw [hpipeline] at hids
    exact absurd (hids _ (List.mem_singleton.mpr rfl)) (Nat.not_le_of_lt hid)
  · rw [Bool.eq_false_iff]
    -- and longer than 256
    intro hmanifest
    obtain ⟨hids, -⟩ := (isManifest_iff (manifestHost_literal _) (Nat.le_succ_of_le (by decide))).mp
      hmanifest
    have hle := hids _ (List.mem_singleton.mpr rfl)
    omega

end PipeX
