/-
  PipeX.Core.Controllers.Packages

  `pack`, `unpack` and `packWithManifest` of
  `src/core/controllers/BinaryController.ts`, and who can read what they make.

  A package is a manifest and a value behind it, the same bytes that `stream.pack`
  writes for this one value.  Three readers take it apart on their own, each with
  its own checks: `unpackWithManifest`, `stream.unpack` and, on an engine without
  plugins, `undo`.

  * `packWithManifest_ok` — what is known of a package.
  * `package_read` — every reader gives the value back.
-/
import PipeX.Core.Controllers.ObjectStreams
import PipeX.Core.Validation
import PipeX.Core.ValueCodec

namespace PipeX

open DataEngine Chunked FrameLimits Outcomes MessagePackFrameScanner

/-! ## Scanning two encodings behind each other -/

/-- What a scan has let pass are values within the limits. -/
theorem values_of_scan {input : Bytes} {maxFrameBytes maxFrames n : Nat}
    (h : assertMessagePackFrameLimits input maxFrameBytes maxFrames = .ok n) :
    ∃ vs : List Bytes, vs.length ≤ maxFrames ∧ (∀ v ∈ vs, IsValue v ∧ v.length ≤ maxFrameBytes) ∧
      input = vs.flatten := by
  obtain ⟨t, hrun, hfinish, -⟩ := assertMessagePackFrameLimits_eq_ok.mp h
  obtain ⟨vs, rest, heq, hvs, hbetween, hcount, hframes, -⟩ :=
    run_sound (between_new maxFrameBytes) (Nat.zero_le _) hrun
  rw [(finish_iff hbetween).mp hfinish, List.nil_append, List.append_nil] at heq
  have hcount : t.scanner.frames = 0 + vs.length := hcount
  exact ⟨vs, by omega, hvs, heq⟩

/-- Such values pass. -/
theorem scan_of_values {vs : List Bytes} {maxFrameBytes maxFrames : Nat}
    (hframes : vs.length ≤ maxFrames) (hvs : ∀ v ∈ vs, IsValue v ∧ v.length ≤ maxFrameBytes)
    (hsafe : vs.flatten.length ≤ maxSafeInteger) :
    ∃ n, assertMessagePackFrameLimits vs.flatten maxFrameBytes maxFrames = .ok n := by
  have hcount : (new : MessagePackFrameScanner).frames + vs.length ≤ maxFrames := by
    rw [show new.frames = 0 from rfl, Nat.zero_add]
    exact hframes
  obtain ⟨t, hrun, hbetween, -⟩ :=
    run_complete (s := ⟨new, 0⟩) (between_new maxFrameBytes) hvs hsafe hcount
  exact ⟨_, assertMessagePackFrameLimits_eq_ok.mpr
    ⟨t, hrun, (finish_iff hbetween).mpr rfl, rfl⟩⟩

/-- One scan behind another. -/
theorem scan_append {a b : Bytes} {maxFrameBytes m n i j : Nat}
    (ha : assertMessagePackFrameLimits a maxFrameBytes m = .ok i)
    (hb : assertMessagePackFrameLimits b maxFrameBytes n = .ok j)
    (hsafe : (a ++ b).length ≤ maxSafeInteger) {maxFrames : Nat} (hle : m + n ≤ maxFrames) :
    ∃ k, assertMessagePackFrameLimits (a ++ b) maxFrameBytes maxFrames = .ok k := by
  obtain ⟨vs, hvs, hvalues, rfl⟩ := values_of_scan ha
  obtain ⟨ws, hws, hvalues', rfl⟩ := values_of_scan hb
  rw [← List.flatten_append] at hsafe ⊢
  refine scan_of_values ?_ ?_ hsafe
  · rw [List.length_append]
    omega
  · intro v hv
    exact (List.mem_append.mp hv).elim (hvalues v) (hvalues' v)

namespace EngineCode

variable {Obj : Type} (code : EngineCode Obj)

/-! ## The three methods -/

/-- The `catch` blocks of `pack` and `unpack`. -/
def rethrow (e : JsError) : JsError :=
  if e.message.startsWith "[PipeX]" then e else validationError

/-- `pack(data)`. -/
def binaryPack (limits : EngineLimits) (data : Value Obj) : Except JsError Bytes :=
  Except.mapError rethrow do
    assertKnownValueByteLimit code.host data (min limits.maxInputBytes limits.maxFrameBytes)
      "Serialization input"
    let packed ← code.host.pack data
    if packed.length > limits.maxInputBytes then
      throw (plainError "[PipeX] Packed input exceeds configured limit")
    let _ ← assertMessagePackFrameLimits packed limits.maxFrameBytes 1
    if packed.length > limits.maxOutputBytes then
      throw (plainError "[PipeX] Packed output exceeds configured limit")
    return packed

/-- `unpack(input)`. -/
def binaryUnpack (limits : EngineLimits) (input : Bytes) : Except JsError (Value Obj) :=
  Except.mapError rethrow do
    if input.length > limits.maxInputBytes then
      throw (plainError "[PipeX] Serialized input exceeds configured limit")
    let _ ← assertMessagePackFrameLimits input limits.maxFrameBytes 1
    match code.host.unpack input with
    | none => throw validationError
    | some value => return value

/-- `packWithManifest(data)`; `ts` is what `Date.now()` returns. -/
def packWithManifest (streams : MsgpackStreams Obj) (limits : EngineLimits) (ts : JsDouble)
    (data : Value Obj) : Except JsError Bytes := do
  if code.plugins.length > 0 then
    throw (plainError
      "[PipeX] packWithManifest is serialization-only; use binary.run for plugin transforms")
  assertKnownValueByteLimit code.host data (min limits.maxInputBytes limits.maxFrameBytes)
    "Serialization input"
  let mFrame ← code.host.pack (streams.literal ⟨[], ts⟩)
  let dFrame ← code.host.pack data
  let _ ← assertMessagePackFrameLimits mFrame limits.maxFrameBytes 1
  let _ ← assertMessagePackFrameLimits dFrame limits.maxFrameBytes 1
  if mFrame.length + dFrame.length > min limits.maxInputBytes limits.maxOutputBytes then
    throw (plainError "[PipeX] Serialized input exceeds configured limit")
  return mFrame ++ dFrame

variable {code} {streams : MsgpackStreams Obj} {limits : EngineLimits} {ts : JsDouble}
  {value : Value Obj}

/-! ## What a package is -/

/-- Two encodings that each fit, and fit together. -/
structure Package (code : EngineCode Obj) (streams : MsgpackStreams Obj) (limits : EngineLimits)
    (ts : JsDouble) (value : Value Obj) (mFrame dFrame : Bytes) : Prop where
  plugins : code.plugins = []
  known : assertKnownValueByteLimit code.host value (min limits.maxInputBytes limits.maxFrameBytes)
    "Serialization input" = .ok ()
  manifest : code.host.pack (streams.literal ⟨[], ts⟩) = .ok mFrame
  data : code.host.pack value = .ok dFrame
  manifest_scan : ∃ n, assertMessagePackFrameLimits mFrame limits.maxFrameBytes 1 = .ok n
  data_scan : ∃ n, assertMessagePackFrameLimits dFrame limits.maxFrameBytes 1 = .ok n
  length_le : (mFrame ++ dFrame).length ≤ min limits.maxInputBytes limits.maxOutputBytes

theorem packWithManifest_ok {packed : Bytes}
    (h : code.packWithManifest streams limits ts value = .ok packed) :
    ∃ mFrame dFrame, Package code streams limits ts value mFrame dFrame ∧
      packed = mFrame ++ dFrame := by
  simp only [packWithManifest] at h
  obtain ⟨hplugins, h⟩ := guard_ok h
  obtain ⟨u, hknown, h⟩ := bind_ok h
  obtain ⟨mFrame, hmanifest, h⟩ := bind_ok h
  obtain ⟨dFrame, hdata, h⟩ := bind_ok h
  obtain ⟨n, hmScan, h⟩ := bind_ok h
  obtain ⟨m, hdScan, h⟩ := bind_ok h
  obtain ⟨hlength, h⟩ := guard_ok h
  cases h
  refine ⟨mFrame, dFrame, ⟨?_, hknown, hmanifest, hdata, ⟨n, hmScan⟩, ⟨m, hdScan⟩, ?_⟩, rfl⟩
  · exact List.length_eq_zero_iff.mp (Nat.eq_zero_of_not_pos hplugins)
  · rw [List.length_append]
    exact Nat.le_of_not_lt hlength

namespace Package

variable {mFrame dFrame : Bytes} (h : Package code streams limits ts value mFrame dFrame)

include h

theorem input_le : (mFrame ++ dFrame).length ≤ limits.maxInputBytes :=
  Nat.le_trans h.length_le (Nat.min_le_left _ _)

theorem output_le : (mFrame ++ dFrame).length ≤ limits.maxOutputBytes :=
  Nat.le_trans h.length_le (Nat.min_le_right _ _)

/-- Both frames pass one scan that has room for two. -/
theorem scan (hvalid : limits.Valid) {maxFrames : Nat} (hframes : 2 ≤ maxFrames) :
    ∃ n, assertMessagePackFrameLimits (mFrame ++ dFrame) limits.maxFrameBytes maxFrames = .ok n := by
  obtain ⟨i, hi⟩ := h.manifest_scan
  obtain ⟨j, hj⟩ := h.data_scan
  exact scan_append hi hj (Nat.le_trans h.input_le (hvalid.safe .maxInputBytes)) hframes

end Package

/-- The streams count the manifest as a frame, too. -/
theorem two_le_wireFrames (hvalid : limits.Valid) : 2 ≤ wireFrames limits := by
  have hpos : 1 ≤ limits.maxFrames := hvalid.positive .maxFrames (by decide)
  have hsafe : limits.maxFrames ≤ maxSafeInteger := hvalid.safe .maxFrames
  rw [wireFrames]
  simp only [maxSafeInteger] at hsafe ⊢
  omega

/-! ## Its readers -/

end EngineCode

/-- What msgpackr promises of encodings behind each other. -/
structure Host.UnpacksMultiple {Obj : Type} (host : Host Obj) : Prop where
  /-- `Unexpected end of MessagePack data` -/
  empty : host.unpack [] = none
  all : ∀ values encodings, values ≠ [] →
    List.Forall₂ (fun value encoded => host.pack value = .ok encoded ∧
      host.unpack encoded = some value) values encodings →
    host.unpackMultiple encodings.flatten = (values, true)

/-- A known length within one limit is within a larger one. -/
theorem assertKnownValueByteLimit_mono {Obj : Type} {host : Host Obj} {value : Value Obj}
    {m n : Nat} {label label' : String} (hle : m ≤ n)
    (h : assertKnownValueByteLimit host value m label = .ok ()) :
    assertKnownValueByteLimit host value n label' = .ok () := by
  unfold assertKnownValueByteLimit at h ⊢
  cases hlength : knownByteLength host value with
  | none => rfl
  | some byteLength =>
    simp only [hlength] at h ⊢
    split at h
    · cases h
    · rename_i hfits
      rw [if_neg (by omega)]

namespace EngineCode

variable {Obj : Type} {code : EngineCode Obj} {streams : MsgpackStreams Obj} {limits : EngineLimits}
  {ts : JsDouble} {value : Value Obj} {mFrame dFrame : Bytes}

/-- `unpackWithManifest` gives back both. -/
theorem Package.unpackWithManifest (h : Package code streams limits ts value mFrame dFrame)
    (hvalid : limits.Valid) (hmultiple : code.host.UnpacksMultiple)
    (hmanifest : manifestOf code.host (streams.literal ⟨[], ts⟩) = some ⟨[], ts⟩)
    (hliteral : code.host.unpack mFrame = some (streams.literal ⟨[], ts⟩))
    (hvalue : code.host.unpack dFrame = some value) :
    code.unpackWithManifest limits (mFrame ++ dFrame) = .ok (⟨[], ts⟩, value) := by
  obtain ⟨n, hscan⟩ := h.scan hvalid (Nat.le_refl 2)
  have hread := hmultiple.all [_, value] [mFrame, dFrame] (List.cons_ne_nil _ _)
    (.cons ⟨h.manifest, hliteral⟩ (.cons ⟨h.data, hvalue⟩ .nil))
  rw [show [mFrame, dFrame].flatten = mFrame ++ dFrame by simp] at hread
  -- two frames are none too many, and none too few
  have htwo : ¬ [streams.literal ⟨[], ts⟩, value].length > 2 := by simp
  simp only [EngineCode.unpackWithManifest, if_neg (Nat.not_lt_of_le h.input_le), hscan, hread,
    if_neg htwo, hmanifest]
  rfl

/-- `pack` makes the second frame on its own, and `unpack` reads it. -/
theorem Package.binaryPack (h : Package code streams limits ts value mFrame dFrame)
    (hvalue : code.host.unpack dFrame = some value) :
    code.binaryPack limits value = .ok dFrame ∧ code.binaryUnpack limits dFrame = .ok value := by
  have hlength : dFrame.length ≤ (mFrame ++ dFrame).length := by
    rw [List.length_append]
    exact Nat.le_add_left _ _
  have hinput := Nat.not_lt_of_le (Nat.le_trans hlength h.input_le)
  have houtput := Nat.not_lt_of_le (Nat.le_trans hlength h.output_le)
  obtain ⟨n, hscan⟩ := h.data_scan
  constructor
  · simp only [EngineCode.binaryPack, h.known, h.data, hscan, if_neg hinput, if_neg houtput, bind,
      Except.bind]
    rfl
  · simp only [EngineCode.binaryUnpack, hscan, if_neg hinput, hvalue]
    rfl

/-- `stream.pack` of the one value writes the same bytes. -/
theorem Package.packPipeline (h : Package code streams limits ts value mFrame dFrame)
    (hvalid : limits.Valid) (hpresent : value.isNullish = false) :
    ∃ chunks, code.packPipeline streams limits ts [value] = .ok chunks ∧
      chunks.flatten = mFrame ++ dFrame := by
  have hvalues : ∀ v ∈ [value], v.isNullish = false := by
    intro v hv
    rwa [List.mem_singleton.mp hv]
  have hpos : [value].length ≤ limits.maxFrames := hvalid.positive .maxFrames (by decide)
  have hknown : ((buildKnownValueByteLimitTransform code.host limits.maxFrameBytes
      "MessagePack frame").complete () [value]).completed = .ok [value] := by
    apply each_push
    intro v hv
    rw [List.mem_singleton.mp hv, assertKnownValueByteLimit_mono (Nat.min_le_right _ _) h.known,
      forward_eq hpresent]
    rfl
  have hpacked : ((createPackrStream code.host).complete () [value]).completed = .ok [dFrame] := by
    have hmapM : ((createPackrStream code.host).complete () [value]).completed =
        [value].mapM code.host.pack := each_completed fun _ _ => rfl
    rw [hmapM, List.mapM_cons, h.data]
    rfl
  -- the bytes behind the encoder
  have hbytes : (handOver (mFrame :: handOver [dFrame])).flatten = mFrame ++ dFrame := by
    rw [flatten_handOver, List.flatten_cons, flatten_handOver, List.flatten_singleton]
  obtain ⟨frames, hframes, hsame⟩ := frameLimit_of_assert
    (hbytes ▸ h.scan hvalid (two_le_wireFrames hvalid))
  have hlimit : ((buildByteLimitTransform limits.maxOutputBytes "output").complete 0
      (handOver frames)).completed = .ok (handOver frames) := by
    refine byteLimit_completed.mpr ⟨?_, rfl⟩
    rw [flatten_handOver, hsame, hbytes]
    exact h.output_le
  refine ⟨handOver frames, ?_, by rw [flatten_handOver, hsame, hbytes]⟩
  have hcounted : ((buildObjectLimitTransform limits.maxFrames).complete 0 [value]).completed =
      .ok [value] := by rw [(objectLimit_complete hvalues).1 hpos]; rfl
  have hheaded : ((buildManifestHeaderTransform mFrame).complete false
      (handOver [dFrame])).completed = .ok (mFrame :: handOver [dFrame]) := by
    rw [manifestHeader_complete]
    rfl
  simp only [EngineCode.packPipeline, h.manifest, passThrough_completed hvalues, hcounted, hknown,
    hpacked, hheaded, hframes, hlimit, bind, Except.bind]

/-! ## Who reads a package -/

/-- What the readers take apart. -/
theorem Package.encodes (h : Package code streams limits ts value mFrame dFrame)
    (hliteral : Inverts code.host [streams.literal ⟨[], ts⟩])
    (hinverts : ∀ encoded, code.host.pack value = .ok encoded → code.host.unpack encoded = some value)
    (hpresent : value.isNullish = false) :
    List.Forall₂ (Encodes code.host) [streams.literal ⟨[], ts⟩, value] [mFrame, dFrame] := by
  obtain ⟨hfirst, hunpacked⟩ := hliteral _ (List.mem_singleton_self _)
  exact .cons ⟨hfirst, h.manifest, hunpacked _ h.manifest⟩
    (.cons ⟨hpresent, h.data, hinverts _ h.data⟩ .nil)

/-- `stream.unpack` reads the value, however the package is cut. -/
theorem Package.unpackPipeline (h : Package code streams limits ts value mFrame dFrame)
    (hvalid : limits.Valid) (hconcat : streams.Concatenates code.host)
    (hmanifest : manifestOf code.host (streams.literal ⟨[], ts⟩) = some ⟨[], ts⟩)
    (hencodes : List.Forall₂ (Encodes code.host) [streams.literal ⟨[], ts⟩, value] [mFrame, dFrame])
    (hschema : code.schema = none) {input : List Bytes} (hinput : input.flatten = mFrame ++ dFrame) :
    code.unpackPipeline streams limits input = .ok [value] := by
  have hflatten : [mFrame, dFrame].flatten = mFrame ++ dFrame := by simp
  have hvalues : ∀ v ∈ [value], v.isNullish = false := by
    cases hencodes with
    | cons _ hrest =>
      cases hrest with
      | cons hencode _ =>
        intro v hv
        rw [List.mem_singleton.mp hv]
        exact hencode.present
  have hpos : [value].length ≤ limits.maxFrames := hvalid.positive .maxFrames (by decide)
  rw [← hflatten] at hinput
  rw [unpackPipeline_manifest hconcat hmanifest hvalues hencodes hinput
    (hflatten ▸ h.input_le) (hflatten ▸ h.scan hvalid (two_le_wireFrames hvalid)),
    (objectLimit_complete hvalues).1 hpos]
  exact validateTransform_completed hschema hvalues

/-- What `packWithManifest` has made of a value is what `stream.pack` writes for it, and
    the frame of `pack` behind a manifest.  `unpackWithManifest`, `stream.unpack` and, for
    its frame, `unpack` give the value back, each with its own count of the frames. -/
theorem package_read (hvalid : limits.Valid) (hmultiple : code.host.UnpacksMultiple)
    (hconcat : streams.Concatenates code.host)
    (hmanifest : manifestOf code.host (streams.literal ⟨[], ts⟩) = some ⟨[], ts⟩)
    (hliteral : Inverts code.host [streams.literal ⟨[], ts⟩])
    (hinverts : ∀ encoded, code.host.pack value = .ok encoded → code.host.unpack encoded = some value)
    {packed : Bytes} (hpacked : code.packWithManifest streams limits ts value = .ok packed) :
    code.unpackWithManifest limits packed = .ok (⟨[], ts⟩, value) ∧
      (∃ mFrame dFrame, packed = mFrame ++ dFrame ∧ code.binaryPack limits value = .ok dFrame ∧
        code.binaryUnpack limits dFrame = .ok value) ∧
      (value.isNullish = false →
        (∃ chunks, code.packPipeline streams limits ts [value] = .ok chunks ∧
          chunks.flatten = packed) ∧
        (code.schema = none → ∀ input : List Bytes, input.flatten = packed →
          code.unpackPipeline streams limits input = .ok [value])) := by
  obtain ⟨mFrame, dFrame, h, rfl⟩ := packWithManifest_ok hpacked
  have hunpacked := (hliteral _ (List.mem_singleton_self _)).2 _ h.manifest
  have hvalue := hinverts _ h.data
  refine ⟨h.unpackWithManifest hvalid hmultiple hmanifest hunpacked hvalue,
    ⟨mFrame, dFrame, rfl, h.binaryPack hvalue⟩, fun hpresent => ?_⟩
  -- the streams hand on what is not nullish
  refine ⟨h.packPipeline hvalid hpresent, fun hschema input hinput => ?_⟩
  exact h.unpackPipeline hvalid hconcat hmanifest (h.encodes hliteral hinverts hpresent) hschema hinput

/-! ## A host that reads packages -/

/-- Manifests only, as many of them as there are. -/
def packageHost : Host SampleObject :=
  { packingHost with
    pack := fun
      | .object .manifest => .ok sampleManifest
      | _ => .error (plainError "unsupported value")
    unpack := fun bytes => if bytes = sampleManifest then some (.object .manifest) else none
    unpackMultiple := fun bytes =>
      (List.replicate (bytes.length / sampleManifest.length) (.object .manifest), true) }

theorem packageHost_pack {value : Value SampleObject} {encoded : Bytes}
    (h : packageHost.pack value = .ok encoded) :
    value = .object .manifest ∧ encoded = sampleManifest := by
  match value, h with
  | .object .manifest, h => exact ⟨rfl, (Except.ok.inj h).symm⟩

theorem packageHost_unpacksMultiple : packageHost.UnpacksMultiple where
  empty := rfl
  all values encodings hne h := by
    clear hne
    have hmanifests : values = List.replicate values.length (.object .manifest) ∧
        encodings.flatten.length = values.length * sampleManifest.length := by
      induction h with
      | nil => exact ⟨rfl, rfl⟩
      | cons hencodes _ ih =>
        obtain ⟨rfl, rfl⟩ := packageHost_pack hencodes.1
        rw [List.length_cons, List.replicate_succ, ← ih.1, List.flatten_cons, List.length_append,
          ih.2, Nat.succ_mul, Nat.add_comm]
        exact ⟨rfl, rfl⟩
    show (List.replicate (encodings.flatten.length / sampleManifest.length) _, true) = _
    rw [hmanifests.2, Nat.mul_div_cancel _ (by decide), ← hmanifests.1]

theorem sampleStreams_package : sampleStreams.Concatenates packageHost := by
  intro values encodings chunks h hchunks
  refine sampleStreams_concatenates values encodings chunks (h.imp ?_) hchunks
  -- what it packs the other one packs, too
  intro value encoded hencodes
  obtain ⟨rfl, rfl⟩ := packageHost_pack hencodes.packed
  exact ⟨rfl, rfl, rfl⟩

theorem packageHost_inverts : Inverts packageHost [sampleStreams.literal ⟨[], .integer 0⟩] := by
  intro value hvalue
  rw [List.mem_singleton.mp hvalue]
  exact ⟨rfl, fun encoded h => by rw [(packageHost_pack h).2]; rfl⟩

def packageCode : EngineCode SampleObject := ⟨packageHost, [], none, none⟩

/-- A package whose value is itself shaped like a manifest. -/
theorem package_read_manifest :
    ∃ packed, packageCode.packWithManifest sampleStreams defaultLimits (.integer 0)
        (.object .manifest) = .ok packed ∧
      packageCode.unpackWithManifest defaultLimits packed =
        .ok (⟨[], .integer 0⟩, .object .manifest) := by
  obtain ⟨packed, hpacked⟩ : ∃ packed, packageCode.packWithManifest sampleStreams defaultLimits
    (.integer 0) (.object .manifest) = .ok packed := ⟨_, rfl⟩
  exact ⟨packed, hpacked, (package_read defaultLimits_valid packageHost_unpacksMultiple
    sampleStreams_package rfl packageHost_inverts
    (packageHost_inverts _ (List.mem_singleton_self _)).2 hpacked).1⟩

/-! ## `undo` of a package -/

/-- A package is taken apart if it is undone as the type of its value. -/
theorem Package.unwrapPackage (h : Package code streams limits ts value mFrame dFrame)
    (hvalid : limits.Valid) (hmultiple : code.host.UnpacksMultiple)
    (hmanifest : manifestOf code.host (streams.literal ⟨[], ts⟩) = some ⟨[], ts⟩)
    (hliteral : code.host.unpack mFrame = some (streams.literal ⟨[], ts⟩))
    (hvalue : code.host.unpack dFrame = some value) (origType : TypeName) :
    code.unwrapPackage limits origType (mFrame ++ dFrame) =
      if detectType value ≠ origType then
        .error (plainError "[PipeX] Manifest data does not match the expected type")
      else
        toBuffer code.host value := by
  simp only [EngineCode.unwrapPackage,
    h.unpackWithManifest hvalid hmultiple hmanifest hliteral hvalue]
  rfl

/-- Nothing in front of the manifest. -/
theorem Package.ne_nil (h : Package code streams limits ts value mFrame dFrame)
    (hmultiple : code.host.UnpacksMultiple)
    (hliteral : code.host.unpack mFrame = some (streams.literal ⟨[], ts⟩)) :
    0 < (mFrame ++ dFrame).length := by
  have hframe : mFrame ≠ [] := by
    rintro rfl
    rw [hmultiple.empty] at hliteral
    cases hliteral
  rw [List.length_append]
  exact Nat.add_pos_left (List.length_pos_iff.mpr hframe) _

/-- What `undo` does with a package: it is handed the bytes of the value. -/
theorem Package.undoBody (h : Package code streams limits ts value mFrame dFrame)
    (hvalid : limits.Valid) (hmultiple : code.host.UnpacksMultiple)
    (hmanifest : manifestOf code.host (streams.literal ⟨[], ts⟩) = some ⟨[], ts⟩)
    (hliteral : code.host.unpack mFrame = some (streams.literal ⟨[], ts⟩))
    (hvalue : code.host.unpack dFrame = some value) {engine : DataEngine}
    (hlimits : engine.limits = limits) (requestId : RequestId) (origType : TypeName) :
    code.undoBody requestId true origType (mFrame ++ dFrame) engine =
      if detectType value ≠ origType then
        .error (plainError "[PipeX] Manifest data does not match the expected type")
      else (do
        let data ← toBuffer code.host value
        code.undoBody requestId false origType data engine) := by
  have hlength : code.plugins.length = 0 := by rw [h.plugins]; rfl
  have hraw : true = true ∧ code.plugins.length = 0 ∧ (mFrame ++ dFrame).length > 0 :=
    ⟨rfl, hlength, h.ne_nil hmultiple hliteral⟩
  rw [EngineCode.undoBody, if_pos hraw, hlimits,
    h.unwrapPackage hvalid hmultiple hmanifest hliteral hvalue]
  by_cases htype : detectType value ≠ origType
  · rw [if_pos htype, if_pos htype]
    rfl
  · rw [if_neg htype, if_neg htype, ← hlimits]
    cases toBuffer code.host value with
    | error e => rfl
    | ok data => rfl

/-- `undo` takes a package for the result of `run` on its value: it comes to the same
    on either, and a package is refused as any other type. -/
theorem package_undone {engine engine' : DataEngine} (hruns : code.RunsOn engine)
    (hvalid : engine.limits.Valid) (hmultiple : code.host.UnpacksMultiple)
    (hmanifest : manifestOf code.host (streams.literal ⟨[], ts⟩) = some ⟨[], ts⟩)
    (hliteral : Inverts code.host [streams.literal ⟨[], ts⟩])
    (hinverts : ∀ encoded, code.host.pack value = .ok encoded → code.host.unpack encoded = some value)
    {packed : Bytes} (hpacked : code.packWithManifest streams engine.limits ts value = .ok packed)
    {requestId resultId rawId : RequestId} (hfresh : engine.Fresh requestId)
    (hresultId : engine.Fresh resultId) (hrawId : engine.Fresh rawId) {clock : Nat → Int}
    (hclock : Monotone clock) {r : LocalResult}
    (hrun : (code.run requestId clock value).run engine = .ok r engine')
    (haudit : Agree
      (code.emitAudit (engine.started resultId) resultId .reverse (.original r.result.originalType))
      (code.emitAudit (engine.started rawId) rawId .reverse (.original r.result.originalType))) :
    Agree (outcome ((code.undoResult resultId r.result none (some r.trustedType)).run engine'))
        (outcome ((code.undoRaw rawId packed r.result.originalType).run engine')) ∧
      ∀ forceType, assertOriginalType forceType = .ok () → forceType ≠ r.result.originalType →
        outcome ((code.undoRaw rawId packed forceType).run engine') =
          .error (plainError "[PipeX] Manifest data does not match the expected type") := by
  obtain ⟨rfl, data, hran⟩ := run_ok hfresh hrun
  obtain ⟨mFrame, dFrame, h, rfl⟩ := packWithManifest_ok hpacked
  have hunpacked := (hliteral _ (List.mem_singleton_self _)).2 _ h.manifest
  have hbody := h.undoBody hvalid hmultiple hmanifest hunpacked (hinverts _ h.data)
    (started_limits engine' rawId) rawId
  -- without plugins the result holds the bytes of the value
  have hdata : r.result.data = data := by
    have hprocessed := hran.processed
    rw [h.plugins] at hprocessed
    exact (Prod.mk.inj (Except.ok.inj hprocessed)).1.symm
  have hreversible : assertReversiblePipeline engine'.plugins = .ok () := by
    rw [hruns.plugins, h.plugins]
    rfl
  have hpipeline : ∀ id ∈ engine'.pipeline, utf16Length id ≤ 512 := by
    rw [DataEngine.pipeline, hruns.plugins, h.plugins]
    intro id hid
    cases hid
  have hundo : ∀ forceType, assertOriginalType forceType = .ok () →
      outcome ((code.undoRaw rawId (mFrame ++ dFrame) forceType).run engine') =
        code.undoBody rawId true forceType (mFrame ++ dFrame) (engine'.started rawId) := by
    intro forceType hsupported
    rw [undoRaw_outcome hsupported, undoRequest_outcome hrawId hran.slot, hreversible,
      if_neg (Nat.not_lt_of_le h.input_le)]
    rfl
  constructor
  · have hresolved := hran.resolveTrustedType hruns hclock hpipeline
    have hresult : outcome ((code.undoResult resultId r.result none (some r.trustedType)).run
        engine') = code.undoBody resultId false (detectType value) data (engine'.started resultId) := by
      simp only [undoResult, EStateM.run_bind, hresolved, check, EStateM.run_pure]
      rw [hdata, undoRequest_outcome hresultId hran.slot, hreversible,
        if_neg (Nat.not_lt_of_le hran.input_le)]
      rfl
    rw [hran.originalType] at haudit ⊢
    rw [hresult, hundo _ hran.supported, hbody, if_neg (not_not_intro rfl), hran.encoded]
    -- the two bodies differ in their audit records only
    show Agree _ (code.undoBody rawId false (detectType value) data (engine'.started rawId))
    rw [undoBody_of_unwrapped _ (fun htrue => absurd htrue (by decide)),
      undoBody_of_unwrapped _ (fun htrue => absurd htrue (by decide)), h.plugins, started_limits,
      started_limits]
    refine agree_bind (agree_refl _) fun out _ => ?_
    split
    · rfl
    refine agree_bind (agree_refl _) fun restored _ => ?_
    refine agree_bind (agree_refl _) fun _ _ => ?_
    exact agree_bind haudit fun _ _ => agree_refl _
  · intro forceType hsupported hne
    rw [hran.originalType] at hne
    rw [hundo forceType hsupported, hbody, if_pos (Ne.symm hne)]

/-- The same package, undone. -/
theorem package_undone_manifest :
    ∃ packed r e, packageCode.packWithManifest sampleStreams defaultLimits (.integer 0)
        (.object .manifest) = .ok packed ∧
      (packageCode.run 0 (fun _ => 0) (.object .manifest)).run (sampleEngine packageCode) = .ok r e ∧
      outcome ((packageCode.undoRaw 2 packed .buffer).run e) =
        .error (plainError "[PipeX] Manifest data does not match the expected type") := by
  obtain ⟨packed, hpacked⟩ : ∃ packed, packageCode.packWithManifest sampleStreams defaultLimits
    (.integer 0) (.object .manifest) = .ok packed := ⟨_, rfl⟩
  obtain ⟨r, e, hrun, htype⟩ : ∃ r e, (packageCode.run 0 (fun _ => 0) (.object .manifest)).run
      (sampleEngine packageCode) = .ok r e ∧ r.result.originalType = .object := ⟨_, _, rfl, rfl⟩
  have hruns : packageCode.RunsOn (sampleEngine packageCode) :=
    ⟨rfl, by decide, fun plugin hplugin => by cases hplugin⟩
  refine ⟨packed, r, e, hpacked, hrun, (package_undone hruns defaultLimits_valid
    packageHost_unpacksMultiple rfl packageHost_inverts
    (packageHost_inverts _ (List.mem_singleton_self _)).2 hpacked (sampleEngine_fresh _ 0)
    (sampleEngine_fresh _ 1) (sampleEngine_fresh _ 2) (fun _ _ _ => le_refl 0) hrun
    (agree_refl _)).2 .buffer rfl ?_⟩
  rw [htype]
  decide

end EngineCode
end PipeX
