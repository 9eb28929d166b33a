/-
  PipeX.Core.DataEngine.Config

  `registerPlugin` and `fromConfig` of `src/core/dataEngine.ts`, with the setters that
  `fromConfig` calls.

  The registry is a map, and a constructor is what `new` makes of the options, or what it
  throws.  Of the objects of a caller only the methods are looked at.

  * `registered_eq` — a name stands for the class that was accepted for it last.
  * `fromConfig_ok_iff` — an engine comes back if and only if each part of the
    configuration is accepted, and it has the plugins of the entries in their order.
  * `fromConfig_error` — an error about an entry is about the first one that fails.
  * `fromConfig_lifecycle` — the request store of such an engine is sound in every run.
-/
import PipeX.Core.DataEngine.RequestStore
import PipeX.Core.Operations
import PipeX.Lib.Outcome
import PipeX.Lib.Triple
import Mathlib.Data.List.Forall2

namespace PipeX

open Transition

/-- `PluginConstructor<TOptions>`. -/
abbrev PluginConstructor (Ω : Type) : Type := Ω → Except Thrown DataEngine.PluginValue

/-- `pluginRegistry`. -/
abbrev PluginRegistry (Ω : Type) : Type := String → Option (PluginConstructor Ω)

/-- An object of the caller, by its properties that are functions. -/
structure Collaborator where
  methods : List String
deriving DecidableEq, Repr

/-- `typeof object[method] === 'function'` for all of them. -/
def Collaborator.Implements (object : Collaborator) (methods : List String) : Prop :=
  ∀ method ∈ methods, method ∈ object.methods

instance (object : Collaborator) (methods : List String) : Decidable (object.Implements methods) :=
  inferInstanceAs (Decidable (∀ method ∈ methods, method ∈ object.methods))

/-- An entry of `config.plugins`. -/
structure PluginEntry (Ω : Type) where
  name : String
  options : Ω
deriving Repr

/-- A property is `none` where it is missing or falsy. -/
structure EngineConfig (Ω : Type) where
  limits : PartialLimits
  logger : Option Collaborator
  tracer : Option Collaborator
  auditLogger : Option Collaborator
  dlq : Option Collaborator
  schemaRegistry : Option Collaborator
  schema : Option Collaborator
  /-- `some none` is a value that is no array -/
  plugins : Option (Option (List (PluginEntry Ω)))

/-- An engine with the fields that the setters fill. -/
structure ConfiguredEngine where
  engine : DataEngine
  logger : Option Collaborator
  tracer : Option Collaborator
  auditLogger : Option Collaborator
  dlq : Option Collaborator
  schemaRegistry : Option Collaborator
  schema : Option Collaborator

/-! ## Registration -/

/-- `/^[a-z0-9][a-z0-9-]{0,63}$/i`. -/
def isPluginName (name : String) : Bool :=
  match name.toList with
  | [] => false
  | first :: rest =>
    first.isAlphanum && rest.all (fun c => c.isAlphanum || c == '-') && decide (rest.length ≤ 63)

section

variable {Ω : Type}

/-- `registerPlugin`; a class is `none` where it is no function. -/
def registerPlugin (registry : PluginRegistry Ω) (name : String)
    (pluginClass : Option (PluginConstructor Ω)) : Except JsError (PluginRegistry Ω) :=
  match pluginClass with
  | none => .error (plainError "[PipeX] Invalid plugin registration")
  | some pluginClass =>
    if isPluginName name then .ok (Function.update registry name (some pluginClass))
    else .error (plainError "[PipeX] Invalid plugin registration")

/-- The registry behind some calls of `registerPlugin`, whichever of them throw. -/
def registered (calls : List (String × Option (PluginConstructor Ω))) : PluginRegistry Ω :=
  calls.foldl (fun registry call =>
    match registerPlugin registry call.1 call.2 with
    | .ok registry => registry
    | .error _ => registry) fun _ => none

/-! ## Setters -/

/-- What the setters check of an object. -/
def checkMethods (methods : List String) (message : String) (object : Option Collaborator) :
    Except JsError Collaborator :=
  match object with
  | none => .error (plainError message)
  | some object =>
    if object.Implements methods then .ok object else .error (plainError message)

namespace ConfiguredEngine

def setLogger (engine : ConfiguredEngine) (logger : Option Collaborator) :
    Except JsError ConfiguredEngine := do
  let logger ← checkMethods ["info", "warn", "error", "debug"]
    "[PipeX] Logger must implement info, warn, error, and debug" logger
  return { engine with logger := some logger }

def setTracer (engine : ConfiguredEngine) (tracer : Option Collaborator) :
    Except JsError ConfiguredEngine := do
  let tracer ← checkMethods ["startSpan"] "[PipeX] Tracer must implement startSpan" tracer
  return { engine with tracer := some tracer }

def setAuditLogger (engine : ConfiguredEngine) (auditLogger : Option Collaborator) :
    Except JsError ConfiguredEngine := do
  let auditLogger ← checkMethods ["log"] "[PipeX] Audit logger must implement log" auditLogger
  return { engine with auditLogger := some auditLogger }

def setDlq (engine : ConfiguredEngine) (stream : Option Collaborator) :
    Except JsError ConfiguredEngine := do
  let stream ← checkMethods ["write"] "[PipeX] DLQ must be a writable stream" stream
  return { engine with dlq := some stream }

def setSchemaRegistry (engine : ConfiguredEngine) (registry : Option Collaborator) :
    Except JsError ConfiguredEngine := do
  let registry ← checkMethods ["getSchema"] "[PipeX] Schema registry must implement getSchema"
    registry
  return { engine with schemaRegistry := some registry }

def setSchema (engine : ConfiguredEngine) (schema : Option Collaborator) :
    Except JsError ConfiguredEngine := do
  let schema ← checkMethods ["safeParse"] "[PipeX] Schema must implement safeParse" schema
  return { engine with schema := some schema }

end ConfiguredEngine

/-! ## Configuration -/

/-- `error instanceof Error ? error.message : String(error)`. -/
def Thrown.message : Thrown → Except Thrown String
  | .error _ e => .ok e.message
  | .undefined => .ok "undefined"
  | .null => .ok "null"
  | .value text => .ok text
  | .unprintable thrown => .error thrown

/-- What a method throws is an `Error`. -/
def thrown {α : Type} : Except JsError α → Except Thrown α
  | .ok a => .ok a
  | .error e => .error (.error .error e)

/-- `engine.use(createPlugin(options))`. -/
def usePlugin (engine : DataEngine) (createPlugin : PluginConstructor Ω) (options : Ω) :
    Except Thrown DataEngine := do
  let plugin ← createPlugin options
  match (DataEngine.use plugin).run engine with
  | .ok _ engine => .ok engine
  | .error e _ => .error (.error .error e)

/-- The body of the loop of `fromConfig`. -/
def addEntry (registry : PluginRegistry Ω) (engine : ConfiguredEngine) (p : PluginEntry Ω) :
    Except Thrown ConfiguredEngine :=
  match registry p.name with
  | none => .error (.plain s!"[PipeX] Unknown plugin in config: {p.name}")
  | some createPlugin =>
    match usePlugin engine.engine createPlugin p.options with
    | .ok used => .ok { engine with engine := used }
    | .error error => do
      let message ← error.message
      .error (.plain s!"[PipeX] Failed to initialize plugin \"{p.name}\": {message}")

/-- `if (value) engine.set(value);` -/
def setIfGiven (engine : ConfiguredEngine) (value : Option Collaborator)
    (set : ConfiguredEngine → Option Collaborator → Except JsError ConfiguredEngine) :
    Except JsError ConfiguredEngine :=
  if value.isSome then set engine value else return engine

/-- `fromConfig`, up to the plugins. -/
def fromSettings (config : EngineConfig Ω) : Except JsError ConfiguredEngine := do
  let engine ← DataEngine.new config.limits
  let engine := ⟨engine, none, none, none, none, none, none⟩
  let engine ← setIfGiven engine config.logger ConfiguredEngine.setLogger
  let engine ← setIfGiven engine config.tracer ConfiguredEngine.setTracer
  let engine ← setIfGiven engine config.auditLogger ConfiguredEngine.setAuditLogger
  let engine ← setIfGiven engine config.dlq ConfiguredEngine.setDlq
  let engine ← setIfGiven engine config.schemaRegistry ConfiguredEngine.setSchemaRegistry
  setIfGiven engine config.schema ConfiguredEngine.setSchema

/-- `fromConfig`; a configuration that is no object is `none`. -/
def fromConfig (registry : PluginRegistry Ω) (config : Option (EngineConfig Ω)) :
    Except Thrown ConfiguredEngine :=
  match config with
  | none => .error (.plain "[PipeX] Configuration must be an object")
  | some config => do
    let engine ← thrown (fromSettings config)
    match config.plugins with
    | none => return engine
    | some none => .error (.plain "[PipeX] Configuration plugins must be an array")
    | some (some entries) => entries.foldlM (addEntry registry) engine

/-! ## Names -/

theorem registered_concat (calls : List (String × Option (PluginConstructor Ω)))
    (call : String × Option (PluginConstructor Ω)) :
    registered (calls ++ [call]) =
      match registerPlugin (registered calls) call.1 call.2 with
      | .ok registry => registry
      | .error _ => registered calls := by
  unfold registered
  rw [List.foldl_concat]

/-- The class that was given for a name last, if it is a name at all. -/
def lastClass (calls : List (String × Option (PluginConstructor Ω))) : PluginRegistry Ω :=
  fun name =>
    if isPluginName name then
      ((calls.filter fun call => call.1 = name).filterMap Prod.snd).getLast?
    else none

/-- That is the class that the name is looked up as. -/
theorem registered_eq (calls : List (String × Option (PluginConstructor Ω))) :
    registered calls = lastClass calls := by
  funext name
  unfold lastClass
  induction calls using List.reverseRecOn with
  | nil =>
    split <;> rfl
  | append_singleton calls call ih =>
    obtain ⟨callName, pluginClass⟩ := call
    rw [registered_concat, List.filter_append, List.filterMap_append]
    cases pluginClass with
    | none =>
      have hnone : (([(callName, none)] : List (String × Option (PluginConstructor Ω))).filter
          fun call => call.1 = name).filterMap Prod.snd = [] := by
        by_cases hname : callName = name <;> simp [hname]
      rw [hnone, List.append_nil]
      exact ih
    | some pluginClass =>
      by_cases hname : callName = name
      · subst hname
        simp only [registerPlugin]
        by_cases hvalid : isPluginName callName
        · simp [hvalid]
        · simpa [hvalid] using ih
      · have hother : (([(callName, some pluginClass)] :
            List (String × Option (PluginConstructor Ω))).filter
            fun call => call.1 = name).filterMap Prod.snd = [] := by
          simp [hname]
        rw [hother, List.append_nil, ← ih]
        simp only [registerPlugin]
        by_cases hvalid : isPluginName callName
        · simp [hvalid, Function.update_of_ne (Ne.symm hname)]
        · simp [hvalid]

/-! ## What the setters accept -/

/-- Each object that is given has the methods that its setter asks for. -/
structure EngineConfig.Implemented (config : EngineConfig Ω) : Prop where
  logger : ∀ object ∈ config.logger, object.Implements ["info", "warn", "error", "debug"]
  tracer : ∀ object ∈ config.tracer, object.Implements ["startSpan"]
  auditLogger : ∀ object ∈ config.auditLogger, object.Implements ["log"]
  dlq : ∀ object ∈ config.dlq, object.Implements ["write"]
  schemaRegistry : ∀ object ∈ config.schemaRegistry, object.Implements ["getSchema"]
  schema : ∀ object ∈ config.schema, object.Implements ["safeParse"]

/-- An engine with the objects of a configuration. -/
def EngineConfig.onto (config : EngineConfig Ω) (engine : DataEngine) : ConfiguredEngine :=
  ⟨engine, config.logger, config.tracer, config.auditLogger, config.dlq, config.schemaRegistry,
    config.schema⟩

/-- A setter behind its condition puts what is given into its field, if that has the
    methods. -/
theorem setIfGiven_ok {engine engine' : ConfiguredEngine} {value : Option Collaborator}
    (put : ConfiguredEngine → Option Collaborator → ConfiguredEngine) (methods : List String)
    (message : String) (hmissing : put engine none = engine) :
    setIfGiven engine value (fun engine object => do
        let object ← checkMethods methods message object
        return put engine (some object)) = .ok engine' ↔
      (∀ object ∈ value, object.Implements methods) ∧
        engine' = put engine value := by
  cases value with
  | none =>
    rw [hmissing]
    constructor
    · intro h
      cases h
      exact ⟨nofun, rfl⟩
    · rintro ⟨-, rfl⟩
      rfl
  | some object =>
    by_cases hmethods : object.Implements methods
    · have hcheck : checkMethods methods message (some object) = .ok object := if_pos hmethods
      simp only [setIfGiven, Option.isSome_some, if_true, hcheck]
      constructor
      · intro h
        cases h
        refine ⟨?_, rfl⟩
        rintro _ ⟨⟩
        exact hmethods
      · rintro ⟨-, rfl⟩
        rfl
    · have hcheck : checkMethods methods message (some object) = .error (plainError message) :=
        if_neg hmethods
      simp only [setIfGiven, Option.isSome_some, if_true, hcheck]
      constructor
      · intro h
        cases h
      · exact fun h => absurd (h.1 object rfl) hmethods

theorem fromSettings_ok {config : EngineConfig Ω} {configured : ConfiguredEngine} :
    fromSettings config = .ok configured ↔
      ∃ fresh, DataEngine.new config.limits = .ok fresh ∧ config.Implemented ∧
        configured = config.onto fresh := by
  constructor
  · intro h
    obtain ⟨fresh, hnew, h⟩ := Outcomes.bind_ok h
    obtain ⟨_, setLogger, h⟩ := Outcomes.bind_ok h
    obtain ⟨_, setTracer, h⟩ := Outcomes.bind_ok h
    obtain ⟨_, setAuditLogger, h⟩ := Outcomes.bind_ok h
    obtain ⟨_, setDlq, h⟩ := Outcomes.bind_ok h
    obtain ⟨_, setSchemaRegistry, h⟩ := Outcomes.bind_ok h
    obtain ⟨hlogger, rfl⟩ := (setIfGiven_ok
      (fun engine value => { engine with logger := value }) _ _ rfl).mp setLogger
    obtain ⟨htracer, rfl⟩ := (setIfGiven_ok
      (fun engine value => { engine with tracer := value }) _ _ rfl).mp setTracer
    obtain ⟨hauditLogger, rfl⟩ := (setIfGiven_ok
      (fun engine value => { engine with auditLogger := value }) _ _ rfl).mp setAuditLogger
    obtain ⟨hdlq, rfl⟩ := (setIfGiven_ok
      (fun engine value => { engine with dlq := value }) _ _ rfl).mp setDlq
    obtain ⟨hschemaRegistry, rfl⟩ := (setIfGiven_ok
      (fun engine value => { engine with schemaRegistry := value }) _ _ rfl).mp setSchemaRegistry
    obtain ⟨hschema, rfl⟩ := (setIfGiven_ok
      (fun engine value => { engine with schema := value }) _ _ rfl).mp h
    exact ⟨fresh, hnew, ⟨hlogger, htracer, hauditLogger, hdlq, hschemaRegistry, hschema⟩, rfl⟩
  · rintro ⟨fresh, hnew, h, rfl⟩
    refine Outcomes.bind_ok_iff.mpr ⟨fresh, hnew, ?_⟩
    refine Outcomes.bind_ok_iff.mpr ⟨_, (setIfGiven_ok
      (fun engine value => { engine with logger := value }) _ _ rfl).mpr
      ⟨h.logger, rfl⟩, ?_⟩
    refine Outcomes.bind_ok_iff.mpr ⟨_, (setIfGiven_ok
      (fun engine value => { engine with tracer := value }) _ _ rfl).mpr
      ⟨h.tracer, rfl⟩, ?_⟩
    refine Outcomes.bind_ok_iff.mpr ⟨_, (setIfGiven_ok
      (fun engine value => { engine with auditLogger := value }) _ _ rfl).mpr
      ⟨h.auditLogger, rfl⟩, ?_⟩
    refine Outcomes.bind_ok_iff.mpr ⟨_, (setIfGiven_ok
      (fun engine value => { engine with dlq := value }) _ _ rfl).mpr
      ⟨h.dlq, rfl⟩, ?_⟩
    refine Outcomes.bind_ok_iff.mpr ⟨_, (setIfGiven_ok
      (fun engine value => { engine with schemaRegistry := value }) _ _ rfl).mpr
      ⟨h.schemaRegistry, rfl⟩, ?_⟩
    exact (setIfGiven_ok (fun engine value => { engine with schema := value }) _ _ rfl).mpr
      ⟨h.schema, rfl⟩

/-! ## Plugins -/

/-- The plugin that an entry stands for passes the checks of `use`. -/
def Builds (registry : PluginRegistry Ω) (entry : PluginEntry Ω) (plugin : ProcessorPlugin) :
    Prop :=
  ∃ createPlugin value capabilities, registry entry.name = some createPlugin ∧
    createPlugin entry.options = .ok value ∧ DataEngine.checkPlugin value = .ok plugin ∧
    getPluginCapabilities plugin = .ok capabilities

/-- An engine with plugins behind its own. -/
def ConfiguredEngine.added (engine : ConfiguredEngine) (plugins : List ProcessorPlugin) :
    ConfiguredEngine :=
  { engine with engine :=
    { engine.engine with plugins := engine.engine.plugins ++ plugins } }

theorem ConfiguredEngine.length_added (engine : ConfiguredEngine)
    (plugins : List ProcessorPlugin) :
    (engine.added plugins).engine.plugins.length =
      engine.engine.plugins.length + plugins.length :=
  List.length_append

theorem ConfiguredEngine.added_nil (engine : ConfiguredEngine) : engine.added [] = engine := by
  unfold ConfiguredEngine.added
  rw [List.append_nil]

theorem ConfiguredEngine.added_added (engine : ConfiguredEngine) (plugin : ProcessorPlugin)
    (plugins : List ProcessorPlugin) :
    (engine.added [plugin]).added plugins = engine.added (plugin :: plugins) := by
  unfold ConfiguredEngine.added
  rw [List.append_assoc]
  rfl

theorem use_ok_iff {value : DataEngine.PluginValue} {engine engine' : DataEngine} :
    (DataEngine.use value).run engine = .ok () engine' ↔
      ∃ plugin capabilities, DataEngine.checkPlugin value = .ok plugin ∧
        getPluginCapabilities plugin = .ok capabilities ∧ engine.activeRequests = ∅ ∧
        engine.plugins.length < 256 ∧
        engine' = { engine with plugins := engine.plugins ++ [plugin] } := by
  constructor
  · intro h
    obtain ⟨plugin, _, hcheck, hrest⟩ := run_bind_ok h
    obtain ⟨capabilities, _, hcapabilities, -⟩ := run_bind_ok hrest
    cases hplugin : DataEngine.checkPlugin value with
    | error e =>
      rw [hplugin] at hcheck
      cases hcheck
    | ok plugin' =>
      rw [hplugin] at hcheck
      cases hcheck
      cases hdeclared : getPluginCapabilities plugin with
      | error e =>
        rw [hdeclared] at hcapabilities
        cases hcapabilities
      | ok capabilities' =>
        rcases DataEngine.use_cases value engine with
          ⟨e, he⟩ | ⟨added, hadded, hidle, hcount, hused⟩
        · rw [he] at h
          cases h
        · rw [hused] at h
          cases h
          rw [hplugin] at hadded
          cases hadded
          exact ⟨plugin, capabilities', rfl, hdeclared, hidle, hcount, rfl⟩
  · rintro ⟨plugin, capabilities, hcheck, hcapabilities, hidle, hcount, rfl⟩
    have hactive : ¬ engine.activeRequests.card > 0 := by
      rw [hidle, Finset.card_empty]
      exact Nat.lt_irrefl 0
    simp only [DataEngine.use, EStateM.run_bind, hcheck, DataEngine.check, EStateM.run_pure,
      hcapabilities, EStateM.run_get, if_neg hactive, if_neg (Nat.not_le_of_lt hcount)]
    rfl

theorem addEntry_ok {registry : PluginRegistry Ω} {engine engine' : ConfiguredEngine}
    {entry : PluginEntry Ω} :
    addEntry registry engine entry = .ok engine' ↔
      ∃ plugin, Builds registry entry plugin ∧ engine.engine.activeRequests = ∅ ∧
        engine.engine.plugins.length < 256 ∧ engine' = engine.added [plugin] := by
  constructor
  · intro h
    unfold addEntry at h
    split at h
    · cases h
    rename_i createPlugin hcreate
    split at h
    · rename_i used hused
      cases h
      obtain ⟨value, hvalue, huse⟩ := Outcomes.bind_ok hused
      split at huse
      · rename_i hrun
        cases huse
        obtain ⟨plugin, capabilities, hcheck, hcapabilities, hidle, hcount, rfl⟩ :=
          use_ok_iff.mp hrun
        exact ⟨plugin, ⟨createPlugin, value, capabilities, hcreate, hvalue, hcheck, hcapabilities⟩,
          hidle, hcount, rfl⟩
      · cases huse
    · obtain ⟨message, -, h⟩ := Outcomes.bind_ok h
      cases h
  · rintro ⟨plugin, ⟨createPlugin, value, capabilities, hcreate, hvalue, hcheck, hcapabilities⟩,
      hidle, hcount, rfl⟩
    have hused : usePlugin engine.engine createPlugin entry.options =
        .ok (engine.added [plugin]).engine := by
      have hrun := use_ok_iff.mpr ⟨plugin, capabilities, hcheck, hcapabilities, hidle, hcount, rfl⟩
      simp only [usePlugin, hvalue, bind, Except.bind, hrun]
      rfl
    simp only [addEntry, hcreate, hused]
    rfl

/-- The entries are taken one after another, each by the plugin that it stands for, and there
    is room for all of them. -/
theorem addEntries_ok {registry : PluginRegistry Ω} {engine engine' : ConfiguredEngine}
    {entries : List (PluginEntry Ω)} (hidle : engine.engine.activeRequests = ∅)
    (hcount : engine.engine.plugins.length ≤ 256) :
    entries.foldlM (addEntry registry) engine = .ok engine' ↔
      ∃ plugins, List.Forall₂ (Builds registry) entries plugins ∧
        engine.engine.plugins.length + entries.length ≤ 256 ∧
        engine' = engine.added plugins := by
  induction entries generalizing engine with
  | nil =>
    constructor
    · intro h
      cases h
      exact ⟨[], .nil, hcount, (ConfiguredEngine.added_nil _).symm⟩
    · rintro ⟨plugins, hplugins, -, rfl⟩
      cases hplugins
      rw [engine.added_nil]
      rfl
  | cons entry entries ih =>
    have hlength (plugin : ProcessorPlugin) :
        (engine.added [plugin]).engine.plugins.length = engine.engine.plugins.length + 1 :=
      engine.length_added [plugin]
    have hstillIdle (plugin : ProcessorPlugin) :
        (engine.added [plugin]).engine.activeRequests = ∅ := hidle
    rw [List.foldlM_cons, Outcomes.bind_ok_iff, List.length_cons]
    constructor
    · rintro ⟨middle, hentry, hrest⟩
      obtain ⟨plugin, hbuilds, -, hroom, rfl⟩ := addEntry_ok.mp hentry
      obtain ⟨plugins, hplugins, hfits, rfl⟩ :=
        (ih (hstillIdle plugin) ((hlength plugin).trans_le hroom)).mp hrest
      rw [hlength] at hfits
      exact ⟨plugin :: plugins, .cons hbuilds hplugins, by omega, engine.added_added plugin plugins⟩
    · rintro ⟨_, hplugins, hfits, rfl⟩
      cases hplugins with
      | cons hbuilds hplugins =>
        rename_i plugin plugins
        refine ⟨engine.added [plugin], addEntry_ok.mpr ⟨plugin, hbuilds, hidle, by omega, rfl⟩, ?_⟩
        refine (ih (hstillIdle plugin) ((hlength plugin).trans_le (by omega))).mpr
          ⟨plugins, hplugins, ?_, ?_⟩
        · rw [hlength]
          omega
        · rw [engine.added_added]

/-! ## Engines from configurations -/

def EngineConfig.entries (config : EngineConfig Ω) : List (PluginEntry Ω) :=
  (config.plugins.bind id).getD []

theorem onto_new {config : EngineConfig Ω} {fresh : DataEngine}
    (h : DataEngine.new config.limits = .ok fresh) :
    (config.onto fresh).engine.activeRequests = ∅ ∧
      (config.onto fresh).engine.plugins.length = 0 := by
  obtain ⟨-, -, h⟩ := Outcomes.bind_ok h
  cases h
  exact ⟨rfl, rfl⟩

/-- `fromConfig` with the entries that have been read. -/
theorem fromConfig_entries {registry : PluginRegistry Ω} {config : EngineConfig Ω}
    (harray : config.plugins ≠ some none) :
    fromConfig registry (some config) = thrown (fromSettings config) >>=
      config.entries.foldlM (addEntry registry) := by
  cases hplugins : config.plugins with
  | none =>
    simp only [fromConfig, EngineConfig.entries, hplugins]
    rfl
  | some plugins =>
    cases plugins with
    | none => exact absurd hplugins harray
    | some entries =>
      simp only [fromConfig, EngineConfig.entries, hplugins]
      rfl

theorem thrown_ok {α : Type} {x : Except JsError α} {a : α} : thrown x = .ok a ↔ x = .ok a := by
  cases x with
  | ok b => simp [thrown]
  | error e => simp [thrown]

theorem fromConfig_ok {registry : PluginRegistry Ω} {config : EngineConfig Ω}
    {configured : ConfiguredEngine} :
    fromConfig registry (some config) = .ok configured ↔
      ∃ fresh plugins, DataEngine.new config.limits = .ok fresh ∧ config.Implemented ∧
        config.plugins ≠ some none ∧ List.Forall₂ (Builds registry) config.entries plugins ∧
        config.entries.length ≤ 256 ∧ configured = (config.onto fresh).added plugins := by
  by_cases harray : config.plugins = some none
  · have hthrows : ∀ configured, fromConfig registry (some config) ≠ .ok configured := by
      intro configured h
      obtain ⟨engine, -, h⟩ := Outcomes.bind_ok h
      rw [harray] at h
      cases h
    constructor
    · exact fun h => absurd h (hthrows configured)
    · rintro ⟨-, -, -, -, hplugins, -⟩
      exact absurd harray hplugins
  rw [fromConfig_entries harray, Outcomes.bind_ok_iff]
  constructor
  · rintro ⟨engine, hsettings, hentries⟩
    obtain ⟨fresh, hnew, himplemented, rfl⟩ := fromSettings_ok.mp (thrown_ok.mp hsettings)
    obtain ⟨hidle, hlength⟩ := onto_new hnew
    obtain ⟨plugins, hplugins, hfits, rfl⟩ :=
      (addEntries_ok hidle (by omega)).mp hentries
    rw [hlength, Nat.zero_add] at hfits
    exact ⟨fresh, plugins, hnew, himplemented, harray, hplugins, hfits, rfl⟩
  · rintro ⟨fresh, plugins, hnew, himplemented, -, hplugins, hfits, rfl⟩
    obtain ⟨hidle, hlength⟩ := onto_new hnew
    refine ⟨config.onto fresh, thrown_ok.mpr (fromSettings_ok.mpr ⟨fresh, hnew, himplemented, rfl⟩),
      (addEntries_ok hidle (by omega)).mpr ⟨plugins, hplugins, by omega, rfl⟩⟩

/-- After any calls of `registerPlugin`, an engine comes back if and only if the limits are
    valid, each object has its methods, and each of at most 256 entries builds a plugin that
    passes the checks; the engine has those plugins, in the order of the entries. -/
theorem fromConfig_ok_iff (calls : List (String × Option (PluginConstructor Ω)))
    (config : EngineConfig Ω) (configured : ConfiguredEngine) :
    fromConfig (registered calls) (some config) = .ok configured ↔
      ∃ fresh plugins, DataEngine.new config.limits = .ok fresh ∧ config.Implemented ∧
        config.plugins ≠ some none ∧
        List.Forall₂ (Builds (lastClass calls)) config.entries plugins ∧
        config.entries.length ≤ 256 ∧ configured = (config.onto fresh).added plugins := by
  rw [registered_eq]
  exact fromConfig_ok

/-! ## Their lifecycle -/

/-- `pluginCapabilities`. -/
def pluginCapabilities (engine : DataEngine) :
    Except JsError (List (String × PluginCapabilities)) :=
  engine.plugins.mapM fun plugin => do
    let capabilities ← getPluginCapabilities plugin
    return (plugin.id, capabilities)

/-- The plugins are such as `use` lets in. -/
structure Furnished (engine : DataEngine) : Prop where
  count : engine.plugins.length ≤ 256
  capable : ∀ plugin ∈ engine.plugins, ∃ capabilities,
    getPluginCapabilities plugin = .ok capabilities

theorem Furnished.of_plugins {engine engine' : DataEngine} (h : Furnished engine)
    (hplugins : engine'.plugins = engine.plugins) : Furnished engine' where
  count := hplugins ▸ h.count
  capable := hplugins ▸ h.capable

/-- The getter finds nothing that `use` would not have found. -/
theorem Furnished.pluginCapabilities_ok {engine : DataEngine} (h : Furnished engine) :
    ∃ views, pluginCapabilities engine = .ok views ∧ views.length = engine.plugins.length := by
  refine Outcomes.mapM_ok fun plugin hplugin => ?_
  obtain ⟨capabilities, hcapabilities⟩ := h.capable plugin hplugin
  rw [hcapabilities]
  exact ⟨_, rfl⟩

/-- Only `use` changes the plugins. -/
theorem furnished_perform {s : Session} (call : Call) (h : Furnished s.engine) :
    Furnished (s.perform call).engine := by
  cases call with
  | startRequest id =>
    refine h.of_plugins ?_
    rcases DataEngine.startRequest_cases id s.engine with ⟨e, he, -⟩ | ⟨-, hstarted⟩
    · simp [Session.perform, he]
    · simp [Session.perform, hstarted]
  | trackWork id pending =>
    refine h.of_plugins ?_
    show (s.engine.trackWork id pending).plugins = s.engine.plugins
    unfold DataEngine.trackWork DataEngine.workOf
    cases s.engine.pendingWork id <;> rfl
  | settled callback => exact h.of_plugins (settled_frame s.engine callback).1
  | releaseRequest id => exact h.of_plugins (releaseRequest_frame s.engine id).1
  | endRequest id => exact h.of_plugins (releaseRequest_frame s.engine id).1
  | emitError err id =>
    rcases s.perform_emitError err id with ⟨-, heq⟩ | ⟨-, heq⟩
    · rw [heq]
      exact h.of_plugins (releaseRequest_frame s.engine id).1
    · rw [heq]
      exact h
  | use value =>
    rcases DataEngine.use_cases value s.engine with ⟨e, he⟩ | ⟨_, -, -, -, hused⟩
    · refine h.of_plugins ?_
      simp [Session.perform, he]
    · obtain ⟨plugin, capabilities, -, hcapabilities, -, hcount, hengine⟩ := use_ok_iff.mp hused
      have hplugins : (s.perform (.use value)).engine.plugins = s.engine.plugins ++ [plugin] := by
        simp only [Session.perform, hused]
        exact congrArg DataEngine.plugins hengine
      constructor
      · rw [hplugins, List.length_append]
        exact hcount
      · rw [hplugins]
        intro other hother
        rcases List.mem_append.mp hother with hother | hother
        · exact h.capable other hother
        · rw [List.mem_singleton.mp hother]
          exact ⟨capabilities, hcapabilities⟩
  | setLimits limits =>
    refine h.of_plugins ?_
    rcases DataEngine.setLimits_cases limits s.engine with ⟨e, he⟩ | ⟨next, -, -, hset⟩
    · simp [Session.perform, he]
    · simp [Session.perform, hset]

theorem builds_capable {registry : PluginRegistry Ω} {entries : List (PluginEntry Ω)}
    {plugins : List ProcessorPlugin} (h : List.Forall₂ (Builds registry) entries plugins) :
    ∀ plugin ∈ plugins, ∃ capabilities, getPluginCapabilities plugin = .ok capabilities := by
  induction h with
  | nil => nofun
  | cons hbuilds _ ih =>
    obtain ⟨_, _, capabilities, -, -, -, hcapabilities⟩ := hbuilds
    exact List.forall_mem_cons.mpr ⟨⟨capabilities, hcapabilities⟩, ih⟩

theorem furnished_configured {registry : PluginRegistry Ω} {config : EngineConfig Ω}
    {fresh : DataEngine} {plugins : List ProcessorPlugin}
    (hnew : DataEngine.new config.limits = .ok fresh)
    (hplugins : List.Forall₂ (Builds registry) config.entries plugins)
    (hfits : config.entries.length ≤ 256) :
    Furnished ((config.onto fresh).added plugins).engine := by
  have hempty : fresh.plugins = [] := List.length_eq_zero_iff.mp (onto_new hnew).2
  have hadded : ((config.onto fresh).added plugins).engine.plugins = plugins := by
    show fresh.plugins ++ plugins = plugins
    rw [hempty, List.nil_append]
  constructor
  · rw [hadded, ← hplugins.length_eq]
    exact hfits
  · rw [hadded]
    exact builds_capable hplugins

theorem consistent_configured {config : EngineConfig Ω} {fresh : DataEngine}
    (hnew : DataEngine.new config.limits = .ok fresh) (plugins : List ProcessorPlugin) :
    Consistent (Session.start ((config.onto fresh).added plugins).engine) := by
  have h := consistent_new hnew
  have hidle : fresh.activeRequests = ∅ := (onto_new hnew).1
  refine { h with pipelines := fun id => ?_ }
  -- no request has recorded a pipeline yet
  have hnone : fresh.requestPipelines id = none := by
    have hid := h.pipelines id
    rw [Session.start, hidle, if_neg (Finset.notMem_empty id)] at hid
    exact hid
  show fresh.requestPipelines id = if id ∈ fresh.activeRequests then _ else none
  rw [hnone, hidle, if_neg (Finset.notMem_empty id)]

/-- Whatever is called on an engine from a configuration, its request store stays consistent,
    its limits valid and its plugins no more than 256, and what it says of their capabilities
    is no error. -/
theorem fromConfig_lifecycle {registry : PluginRegistry Ω} {config : EngineConfig Ω}
    {configured : ConfiguredEngine} (h : fromConfig registry (some config) = .ok configured)
    {calls : List Call} (hlegal : lifecycle.Legal (Session.start configured.engine) calls) :
    let s := lifecycle.run (Session.start configured.engine) calls
    Consistent s ∧ s.engine.limits.Valid ∧ s.engine.plugins.length ≤ 256 ∧
      ∃ views, pluginCapabilities s.engine = .ok views ∧
        views.length = s.engine.plugins.length := by
  obtain ⟨fresh, plugins, hnew, -, -, hplugins, hfits, rfl⟩ := fromConfig_ok.mp h
  obtain ⟨hconsistent, hfurnished⟩ := Machine.invariant (m := lifecycle)
    (P := fun s : Session => Consistent s ∧ Furnished s.engine)
    (fun _ call hs henabled => ⟨consistent_perform hs.1 henabled, furnished_perform call hs.2⟩)
    ⟨consistent_configured hnew plugins, furnished_configured hnew hplugins hfits⟩ hlegal
  exact ⟨hconsistent, hconsistent.limits, hfurnished.count, hfurnished.pluginCapabilities_ok⟩

/-- A registry with one class. -/
def hashingRegistry : PluginRegistry Unit :=
  registered [("hashing", some fun _ =>
    .ok ⟨some "hashing", some "3.0.0", true, .boolean false, .boolean true, .own, true⟩)]

/-- A configuration with plugins and nothing else. -/
def pluginConfig (names : List String) : EngineConfig Unit where
  limits := fun _ => none
  logger := none
  tracer := none
  auditLogger := none
  dlq := none
  schemaRegistry := none
  schema := none
  plugins := some (some (names.map fun name => ⟨name, ()⟩))

/-- A request on an engine with one plugin. -/
theorem fromConfig_lifecycle_request :
    ∃ configured, fromConfig hashingRegistry (some (pluginConfig ["hashing"])) = .ok configured ∧
      Consistent (lifecycle.run (Session.start configured.engine) [.startRequest 7]) := by
  have hreturns : (fromConfig hashingRegistry (some (pluginConfig ["hashing"]))).isOk = true := by
    decide +kernel
  cases hconfigured : fromConfig hashingRegistry (some (pluginConfig ["hashing"])) with
  | error e =>
    rw [hconfigured] at hreturns
    cases hreturns
  | ok configured =>
    have hlegal : lifecycle.Legal (Session.start configured.engine) [.startRequest 7] :=
      ⟨rfl, trivial⟩
    exact ⟨configured, rfl, (fromConfig_lifecycle hconfigured hlegal).1⟩

/-! ## Errors -/

/-- What the constructor of an entry throws, or `use` of the engine for the plugin that it
    has made. -/
inductive EntryThrows (engine : DataEngine) (createPlugin : PluginConstructor Ω) (options : Ω) :
    Thrown → Prop where
  | constructor {error : Thrown} (throws : createPlugin options = .error error) :
    EntryThrows engine createPlugin options error
  | use {value : DataEngine.PluginValue} {error : JsError} {engine' : DataEngine}
      (made : createPlugin options = .ok value)
      (throws : (DataEngine.use value).run engine = .error error engine') :
    EntryThrows engine createPlugin options (.error .error error)

theorem usePlugin_error {engine : DataEngine} {createPlugin : PluginConstructor Ω} {options : Ω}
    {error : Thrown} (h : usePlugin engine createPlugin options = .error error) :
    EntryThrows engine createPlugin options error := by
  cases hvalue : createPlugin options with
  | error error' =>
    rw [usePlugin, hvalue] at h
    cases h
    exact .constructor hvalue
  | ok value =>
    have hrun : (match (DataEngine.use value).run engine with
        | .ok _ engine => Except.ok engine
        | .error e _ => Except.error (Thrown.error .error e)) = Except.error error := by
      rw [← h, usePlugin, hvalue]
      rfl
    split at hrun
    · cases hrun
    · rename_i huse
      cases hrun
      exact .use hvalue huse

/-- What `fromConfig` says of an entry that it has come to with this engine.  A thrown value
    for which `String(error)` throws is replaced by what that throws. -/
def Reports (registry : PluginRegistry Ω) (engine : DataEngine) (entry : PluginEntry Ω)
    (e : Thrown) : Prop :=
  (registry entry.name = none ∧ e = .plain s!"[PipeX] Unknown plugin in config: {entry.name}") ∨
    (∃ createPlugin error message, registry entry.name = some createPlugin ∧
      EntryThrows engine createPlugin entry.options error ∧ error.message = .ok message ∧
      e = .plain s!"[PipeX] Failed to initialize plugin \"{entry.name}\": {message}") ∨
    ∃ createPlugin, registry entry.name = some createPlugin ∧
      createPlugin entry.options = .error (.unprintable e)

theorem addEntry_error {registry : PluginRegistry Ω} {engine : ConfiguredEngine}
    {entry : PluginEntry Ω} {e : Thrown} (h : addEntry registry engine entry = .error e) :
    Reports registry engine.engine entry e := by
  unfold addEntry at h
  split at h
  · rename_i hunknown
    cases h
    exact .inl ⟨hunknown, rfl⟩
  rename_i createPlugin hcreate
  split at h
  · cases h
  rename_i error hused
  have hthrows := usePlugin_error hused
  cases hmessage : error.message with
  | ok message =>
    rw [hmessage] at h
    cases h
    exact .inr (.inl ⟨createPlugin, error, message, hcreate, hthrows, hmessage, rfl⟩)
  | error e' =>
    rw [hmessage] at h
    cases h
    cases hthrows with
    -- only a constructor throws values that are no errors
    | use made throws => cases hmessage
    | constructor throws =>
      cases error with
      | unprintable inner =>
        cases hmessage
        exact .inr (.inr ⟨createPlugin, hcreate, throws⟩)
      | error cls inner => cases hmessage
      | undefined => cases hmessage
      | null => cases hmessage
      | value text => cases hmessage

/-- An error that is about an entry is about the first one that fails: those before it have
    built their plugins, and it builds none or the engine is full. -/
theorem fromConfig_error {registry : PluginRegistry Ω} {config : EngineConfig Ω} {e : Thrown}
    (h : fromConfig registry (some config) = .error e) :
    (∃ error, fromSettings config = .error error ∧ e = .error .error error) ∨
      (config.plugins = some none ∧
        e = .plain "[PipeX] Configuration plugins must be an array") ∨
      ∃ fresh before entry after plugins, DataEngine.new config.limits = .ok fresh ∧
        config.entries = before ++ entry :: after ∧
        List.Forall₂ (Builds registry) before plugins ∧
        ((∃ plugin, Builds registry entry plugin) → before.length = 256) ∧
        Reports registry ((config.onto fresh).added plugins).engine entry e := by
  cases hsettings : fromSettings config with
  | error error =>
    have hthrows : fromConfig registry (some config) = .error (.error .error error) := by
      simp only [fromConfig, hsettings]
      rfl
    rw [hthrows] at h
    cases h
    exact .inl ⟨error, rfl, rfl⟩
  | ok engine =>
    by_cases harray : config.plugins = some none
    · have hthrows : fromConfig registry (some config) =
          .error (.plain "[PipeX] Configuration plugins must be an array") := by
        simp only [fromConfig, hsettings, harray]
        rfl
      rw [hthrows] at h
      cases h
      exact .inr (.inl ⟨harray, rfl⟩)
    · rw [fromConfig_entries harray, hsettings] at h
      obtain ⟨before, entry, after, middle, hsplit, hbefore, hfails⟩ := Outcomes.foldlM_error h
      obtain ⟨fresh, hnew, -, rfl⟩ := fromSettings_ok.mp hsettings
      obtain ⟨hidle, hlength⟩ := onto_new hnew
      obtain ⟨plugins, hplugins, hfits, rfl⟩ := (addEntries_ok hidle (by omega)).mp hbefore
      refine .inr (.inr ⟨fresh, before, entry, after, plugins, hnew, hsplit, hplugins, ?_,
        addEntry_error hfails⟩)
      rintro ⟨plugin, hbuilds⟩
      by_contra hroom
      have htaken : ((config.onto fresh).added plugins).engine.plugins.length < 256 := by
        have hsame := hplugins.length_eq
        rw [ConfiguredEngine.length_added]
        omega
      have hstillIdle : ((config.onto fresh).added plugins).engine.activeRequests = ∅ := hidle
      rw [addEntry_ok.mpr ⟨plugin, hbuilds, hstillIdle, htaken, rfl⟩] at hfails
      cases hfails

end

/-- Two classes, the constructor of the second of which throws a string. -/
def brokenRegistry : PluginRegistry Unit :=
  registered [("hashing", some fun _ =>
    .ok ⟨some "hashing", some "3.0.0", true, .boolean false, .boolean true, .own, true⟩),
    ("brotli", some fun _ => .error (.value "no brotli"))]

/-- The second of two plugins cannot be made. -/
theorem fromConfig_error_thrown :
    ∃ fresh before entry after plugins,
      DataEngine.new (pluginConfig ["hashing", "brotli"]).limits = .ok fresh ∧
      (pluginConfig ["hashing", "brotli"]).entries = before ++ entry :: after ∧
      List.Forall₂ (Builds brokenRegistry) before plugins ∧
      Reports brokenRegistry
        (((pluginConfig ["hashing", "brotli"]).onto fresh).added plugins).engine entry
        (.plain "[PipeX] Failed to initialize plugin \"brotli\": no brotli") := by
  have hthrows : fromConfig brokenRegistry (some (pluginConfig ["hashing", "brotli"])) =
      .error (.plain "[PipeX] Failed to initialize plugin \"brotli\": no brotli") := by
    have hchecked : (match
          fromConfig brokenRegistry (some (pluginConfig ["hashing", "brotli"])) with
        | .error e => decide
            (e = .plain "[PipeX] Failed to initialize plugin \"brotli\": no brotli")
        | .ok _ => false) = true := by
      decide +kernel
    split at hchecked
    · rename_i e he
      rw [he, of_decide_eq_true hchecked]
    · cases hchecked
  rcases fromConfig_error hthrows with ⟨error, hsettings, -⟩ | ⟨harray, -⟩ | h
  · have hreturns : (fromSettings (pluginConfig ["hashing", "brotli"])).isOk = true := by
      decide +kernel
    rw [hsettings] at hreturns
    cases hreturns
  · cases harray
  · obtain ⟨fresh, before, entry, after, plugins, hnew, hsplit, hplugins, -, hreports⟩ := h
    exact ⟨fresh, before, entry, after, plugins, hnew, hsplit, hplugins, hreports⟩

end PipeX
