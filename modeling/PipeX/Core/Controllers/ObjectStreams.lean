/-
  PipeX.Core.Controllers.ObjectStreams

  `unpack` behind `pack`.

  * `packPipeline_ok` — what comes out of `pack`: the manifest and the encodings, in
    order, within the frame limits of `unpack`.
  * `unpackPipeline_eq` — what `unpack` makes of encodings that fit, however they are
    cut.
  * `unpack_pack` — the two together.
-/
import PipeX.Core.Controllers.BinaryInversion
import PipeX.Core.Controllers.StreamController

namespace PipeX

open DataEngine Chunked FrameLimits Outcomes

/-! ## What msgpackr promises -/

section Streams

variable {Obj : Type}

/-- The encoding of a value that unpacking gives back. -/
structure Encodes (host : Host Obj) (value : Value Obj) (encoded : Bytes) : Prop where
  present : value.isNullish = false
  packed : host.pack value = .ok encoded
  unpacked : host.unpack encoded = some value

/-- The unpacking stream reads concatenated encodings, however they are cut. -/
def MsgpackStreams.Concatenates (streams : MsgpackStreams Obj) (host : Host Obj) : Prop :=
  ∀ values encodings chunks, List.Forall₂ (Encodes host) values encodings →
    chunks.flatten = encodings.flatten →
    streams.unpackr.complete streams.start chunks = ⟨values, .ok ()⟩

/-- Values come back from their encodings. -/
def Inverts (host : Host Obj) (values : List (Value Obj)) : Prop :=
  ∀ value ∈ values, value.isNullish = false ∧
    ∀ encoded, host.pack value = .ok encoded → host.unpack encoded = some value

theorem encodes_of_inverts {host : Host Obj} {values : List (Value Obj)} {encodings : List Bytes}
    (hinverts : Inverts host values)
    (h : List.Forall₂ (fun value encoded => host.pack value = .ok encoded) values encodings) :
    List.Forall₂ (Encodes host) values encodings := by
  induction h with
  | nil => exact .nil
  | cons hpacked _ ih =>
    obtain ⟨hpresent, hunpacked⟩ := hinverts _ (List.mem_cons_self ..)
    exact .cons ⟨hpresent, hpacked, hunpacked _ hpacked⟩
      (ih fun value hvalue => hinverts value (List.mem_cons_of_mem _ hvalue))

/-- Within its limit the guard only counts. -/
theorem createUnpackrStream_complete {streams : MsgpackStreams Obj} {maxInputBytes received : Nat}
    {state : streams.State} {chunks : List Bytes} {values : List (Value Obj)}
    (hle : received + chunks.flatten.length ≤ maxInputBytes)
    (h : streams.unpackr.complete state chunks = ⟨values, .ok ()⟩) :
    (createUnpackrStream streams maxInputBytes).complete (received, state) chunks =
      ⟨values, .ok ()⟩ := by
  induction chunks generalizing received state values with
  | nil => exact h
  | cons chunk chunks ih =>
    rw [List.flatten_cons, List.length_append] at hle
    -- the chunk fits what is left, so the guard hands it on
    rw [Transform.complete_cons] at h ⊢
    have hresult := congrArg Emit.result h
    obtain ⟨state', hstate, hrest, hout⟩ := Emit.bind_eq_ok hresult
    rw [h] at hout
    have hfits : ¬ chunk.length > maxInputBytes - received := by omega
    have htransform : (createUnpackrStream streams maxInputBytes).transform (received, state) chunk =
        ⟨(streams.unpackr.transform state chunk).out, .ok (received + chunk.length, state')⟩ := by
      simp only [createUnpackrStream, if_neg hfits, hstate, Except.mapError]
      rw [Emit.bind_ok rfl]
      exact Emit.ext (List.append_nil _) rfl
    -- the rest of the chunks, from the state behind it
    have hbehind := @ih (received + chunk.length) state'
      (streams.unpackr.complete state' chunks).out (by omega) (Emit.ext rfl hrest)
    rw [htransform, Emit.bind_ok rfl]
    refine Emit.ext ?_ ?_
    · show _ ++ ((createUnpackrStream streams maxInputBytes).complete _ chunks).out = values
      rw [hbehind]
      exact hout.symm
    · show ((createUnpackrStream streams maxInputBytes).complete _ chunks).result = _
      rw [hbehind]

/-! ## The limits of the two pipelines -/

theorem byteLimit_completed {maxBytes : Nat} {label : String} {chunks out : List Bytes} :
    ((buildByteLimitTransform maxBytes label).complete 0 chunks).completed = .ok out ↔
      chunks.flatten.length ≤ maxBytes ∧ out = chunks := by
  obtain ⟨hfits, hexceeds⟩ := @byteLimit_complete maxBytes label chunks
  by_cases h : chunks.flatten.length ≤ maxBytes
  · rw [hfits h]
    constructor
    · intro hok
      cases hok
      exact ⟨h, rfl⟩
    · rintro ⟨-, rfl⟩
      rfl
  · obtain ⟨e, he⟩ := hexceeds (Nat.lt_of_not_le h)
    rw [Emit.completed, he]
    constructor
    · intro hok
      cases hok
    · rintro ⟨hle, -⟩
      exact absurd hle h

/-- The stage lets pass what the check of the whole lets pass. -/
theorem frameLimit_completed {maxFrameBytes maxFrames : Nat} {chunks frames : List Bytes}
    (h : ((buildFrameLimitTransform maxFrameBytes maxFrames).complete .initial chunks).completed =
      .ok frames) :
    frames.flatten = chunks.flatten ∧
      ∃ n, assertMessagePackFrameLimits chunks.flatten maxFrameBytes maxFrames = .ok n := by
  obtain ⟨hiff, ⟨ws, -, -, hall⟩, -⟩ := frameLimitTransform_splits maxFrameBytes maxFrames chunks
  have hcall := Emit.completed_ok h
  rw [hcall] at hiff hall
  obtain ⟨rfl, hflatten⟩ := hall ⟨(), rfl⟩
  exact ⟨hflatten, hiff.mp ⟨(), rfl⟩⟩

theorem frameLimit_of_assert {maxFrameBytes maxFrames : Nat} {chunks : List Bytes}
    (h : ∃ n, assertMessagePackFrameLimits chunks.flatten maxFrameBytes maxFrames = .ok n) :
    ∃ frames,
      ((buildFrameLimitTransform maxFrameBytes maxFrames).complete .initial chunks).completed =
        .ok frames ∧ frames.flatten = chunks.flatten := by
  obtain ⟨hiff, -, -⟩ := frameLimitTransform_splits maxFrameBytes maxFrames chunks
  obtain ⟨u, hresult⟩ := hiff.mpr h
  have hok : ∃ frames, ((buildFrameLimitTransform maxFrameBytes maxFrames).complete .initial
      chunks).completed = .ok frames := by
    rw [Emit.completed, hresult]
    exact ⟨_, rfl⟩
  obtain ⟨frames, hframes⟩ := hok
  exact ⟨frames, hframes, (frameLimit_completed hframes).1⟩

end Streams

namespace EngineCode

variable {Obj : Type} {code : EngineCode Obj} {streams : MsgpackStreams Obj} {limits : EngineLimits}

/-! ## pack -/

/-- What comes out of `pack` are the manifest and the encodings; the values are no more
    than `unpack` takes, and the frames are within its limits. -/
theorem packPipeline_ok {ts : JsDouble} {values : List (Value Obj)} {packed : List Bytes}
    (hvalues : ∀ value ∈ values, value.isNullish = false)
    (h : code.packPipeline streams limits ts values = .ok packed) :
    ∃ frame encodings, code.host.pack (streams.literal ⟨[], ts⟩) = .ok frame ∧
      List.Forall₂ (fun value encoded => code.host.pack value = .ok encoded) values encodings ∧
      values.length ≤ limits.maxFrames ∧ packed.flatten = (frame :: encodings).flatten ∧
      ∃ n, assertMessagePackFrameLimits packed.flatten limits.maxFrameBytes (wireFrames limits) =
        .ok n := by
  simp only [packPipeline] at h
  obtain ⟨frame, hframe, h⟩ := bind_ok h
  -- the stages of values: none of them drops or changes a value that is not nullish
  obtain ⟨passed, hpassed, h⟩ := bind_ok h
  rw [passThrough_completed hvalues] at hpassed
  cases hpassed
  obtain ⟨counted, hcounted, h⟩ := bind_ok h
  obtain ⟨hfits, hexceeds⟩ := @objectLimit_complete Obj limits.maxFrames values hvalues
  have hle : values.length ≤ limits.maxFrames := by
    by_contra hlt
    obtain ⟨e, he⟩ := hexceeds (Nat.lt_of_not_le hlt)
    rw [Emit.completed, he] at hcounted
    cases hcounted
  have hsame : counted = values := by
    rw [hfits hle] at hcounted
    exact (Except.ok.inj hcounted).symm
  rw [hsame] at h
  obtain ⟨known, hknown, h⟩ := bind_ok h
  rw [knownValueByteLimit_completed code.host hvalues hknown] at h
  -- the encoder, and behind it the stages of bytes
  obtain ⟨encodings, hencodings, h⟩ := bind_ok h
  have hmapM : ((createPackrStream code.host).complete () values).completed =
      values.mapM code.host.pack := each_completed fun _ _ => rfl
  rw [hmapM] at hencodings
  obtain ⟨headed, hheaded, h⟩ := bind_ok h
  rw [manifestHeader_complete] at hheaded
  cases hheaded
  obtain ⟨frames, hframes, h⟩ := bind_ok h
  obtain ⟨hflatten, hassert⟩ := frameLimit_completed hframes
  obtain ⟨-, rfl⟩ := byteLimit_completed.mp h
  rw [flatten_handOver] at hflatten hassert
  rw [List.flatten_cons, flatten_handOver] at hflatten hassert
  refine ⟨frame, encodings, hframe, forall₂_of_mapM hencodings, hle, ?_, ?_⟩
  · rw [flatten_handOver, hflatten, List.flatten_cons]
  · rw [flatten_handOver, hflatten]
    exact hassert

/-! ## unpack -/

/-- Encodings that fit, however they are cut: what is behind the unpacking stream is
    handed the values. -/
theorem unpackPipeline_eq (hconcat : streams.Concatenates code.host) {values : List (Value Obj)}
    {encodings input : List Bytes} (hencodes : List.Forall₂ (Encodes code.host) values encodings)
    (hinput : input.flatten = encodings.flatten)
    (hle : encodings.flatten.length ≤ limits.maxInputBytes)
    (hassert : ∃ n, assertMessagePackFrameLimits encodings.flatten limits.maxFrameBytes
      (wireFrames limits) = .ok n) :
    code.unpackPipeline streams limits input = (do
      let values ← ((buildManifestExtractTransform code.host onManifest).complete false
        values).completed
      let values ← ((buildObjectLimitTransform limits.maxFrames).complete 0 values).completed
      (code.validateTransform.complete () values).completed) := by
  have hbytes : ((buildByteLimitTransform limits.maxInputBytes "input").complete 0
      (handOver input)).completed = .ok (handOver input) := by
    apply byteLimit_completed.mpr
    rw [flatten_handOver, hinput]
    exact ⟨hle, rfl⟩
  -- each stage cuts the bytes anew, and keeps them
  have hflatten : (handOver (handOver input)).flatten = encodings.flatten := by
    rw [flatten_handOver, flatten_handOver, hinput]
  obtain ⟨frames, hframes, hsame⟩ := frameLimit_of_assert (hflatten ▸ hassert)
  have hcut : (handOver frames).flatten = encodings.flatten := by
    rw [flatten_handOver, hsame, hflatten]
  have hunpacked := createUnpackrStream_complete
    (show 0 + (handOver frames).flatten.length ≤ limits.maxInputBytes by
      rw [Nat.zero_add, hcut]
      exact hle)
    (hconcat values encodings _ hencodes hcut)
  simp only [unpackPipeline, hbytes]
  show (Emit.completed _ >>= _) = _
  rw [hframes]
  show (Emit.completed _ >>= _) = _
  rw [hunpacked]
  rfl

/-- Only encodings that fit come through. -/
theorem unpackPipeline_fits {input : List Bytes} {values : List (Value Obj)}
    (h : code.unpackPipeline streams limits input = .ok values) :
    input.flatten.length ≤ limits.maxInputBytes ∧
      ∃ n, assertMessagePackFrameLimits input.flatten limits.maxFrameBytes (wireFrames limits) =
        .ok n := by
  simp only [unpackPipeline] at h
  obtain ⟨chunks, hchunks, h⟩ := bind_ok h
  obtain ⟨hle, hsame⟩ := byteLimit_completed.mp hchunks
  rw [hsame] at h
  obtain ⟨frames, hframes, -⟩ := bind_ok h
  obtain ⟨-, hassert⟩ := frameLimit_completed hframes
  rw [flatten_handOver] at hle
  rw [flatten_handOver, flatten_handOver] at hassert
  exact ⟨hle, hassert⟩

/-- Values behind a manifest: they come out if they are not too many. -/
theorem unpackPipeline_manifest (hconcat : streams.Concatenates code.host) {first : Value Obj}
    {manifest : PipeXManifest} (hfirst : manifestOf code.host first = some manifest)
    {values : List (Value Obj)} (hvalues : ∀ value ∈ values, value.isNullish = false)
    {frame : Bytes} {encodings input : List Bytes}
    (hencodes : List.Forall₂ (Encodes code.host) (first :: values) (frame :: encodings))
    (hinput : input.flatten = (frame :: encodings).flatten)
    (hle : (frame :: encodings).flatten.length ≤ limits.maxInputBytes)
    (hassert : ∃ n, assertMessagePackFrameLimits (frame :: encodings).flatten limits.maxFrameBytes
      (wireFrames limits) = .ok n) :
    code.unpackPipeline streams limits input = (do
      onManifest manifest
      let values ← ((buildObjectLimitTransform limits.maxFrames).complete 0 values).completed
      (code.validateTransform.complete () values).completed) := by
  rw [unpackPipeline_eq hconcat hencodes hinput hle hassert,
    manifestExtract_complete code.host hfirst hvalues]
  cases onManifest manifest with
  | error e => rfl
  | ok u => rfl

/-! ## Round trip -/

theorem validateTransform_completed (hschema : code.schema = none) {values : List (Value Obj)}
    (hvalues : ∀ value ∈ values, value.isNullish = false) :
    (code.validateTransform.complete () values).completed = .ok values := by
  apply each_push
  intro value hvalue
  rw [forward_eq (hvalues value hvalue)]
  rw [code.validate_none hschema]
  rfl

/-- The bytes of `pack`, however they are cut, unpack to the values, and nothing but the
    manifest is dropped. -/
theorem unpackPipeline_packed (hconcat : streams.Concatenates code.host) (hschema : code.schema = none)
    {ts : JsDouble} (hmanifest : manifestOf code.host (streams.literal ⟨[], ts⟩) = some ⟨[], ts⟩)
    {values : List (Value Obj)} (hinverts : Inverts code.host (streams.literal ⟨[], ts⟩ :: values))
    {packed input : List Bytes} (hpack : code.packPipeline streams limits ts values = .ok packed)
    (hle : packed.flatten.length ≤ limits.maxInputBytes) (hinput : input.flatten = packed.flatten) :
    code.unpackPipeline streams limits input = .ok values := by
  have hvalues : ∀ value ∈ values, value.isNullish = false := fun value hvalue =>
    (hinverts value (List.mem_cons_of_mem _ hvalue)).1
  obtain ⟨frame, encodings, hframe, hencodings, hcount, hflatten, hassert⟩ :=
    packPipeline_ok hvalues hpack
  rw [hflatten] at hle hinput hassert
  have hencodes := encodes_of_inverts hinverts (.cons hframe hencodings)
  rw [unpackPipeline_manifest hconcat hmanifest hvalues hencodes hinput hle hassert,
    (objectLimit_complete hvalues).1 hcount]
  exact validateTransform_completed hschema hvalues

/-- Too many values behind a manifest. -/
theorem unpackPipeline_exceeds (hconcat : streams.Concatenates code.host) {first : Value Obj}
    (hfirst : isManifest code.host first = true) {values : List (Value Obj)} {frame : Bytes}
    {encodings input : List Bytes} (hencode : Encodes code.host first frame)
    (hencodes : List.Forall₂ (Encodes code.host) values encodings)
    (hinput : input.flatten = (frame :: encodings).flatten)
    (hcount : limits.maxFrames < values.length) :
    ∃ e, code.unpackPipeline streams limits input = .error e := by
  cases hunpack : code.unpackPipeline streams limits input with
  | error e => exact ⟨e, rfl⟩
  | ok out =>
    have hvalues : ∀ value ∈ values, value.isNullish = false := by
      intro value hvalue
      obtain ⟨i, hi, rfl⟩ := List.mem_iff_getElem.mp hvalue
      exact (hencodes.get hi (hencodes.length_eq ▸ hi)).present
    obtain ⟨manifest, hmanifest⟩ := Option.isSome_iff_exists.mp hfirst
    -- had it come through, the frames would be within the limits, and the values counted
    obtain ⟨hle, hassert⟩ := unpackPipeline_fits hunpack
    rw [hinput] at hle hassert
    rw [unpackPipeline_manifest hconcat hmanifest hvalues (.cons hencode hencodes) hinput hle
      hassert] at hunpack
    obtain ⟨-, -, hunpack⟩ := bind_ok hunpack
    obtain ⟨counted, hcounted, -⟩ := bind_ok hunpack
    obtain ⟨e, he⟩ := (objectLimit_complete hvalues).2 hcount
    rw [Emit.completed, he] at hcounted
    cases hcounted

/-- Too many values for `pack`. -/
theorem packPipeline_exceeds {ts : JsDouble} {values : List (Value Obj)}
    (hvalues : ∀ value ∈ values, value.isNullish = false)
    (hcount : limits.maxFrames < values.length) :
    ∃ e, code.packPipeline streams limits ts values = .error e := by
  cases hpack : code.packPipeline streams limits ts values with
  | error e => exact ⟨e, rfl⟩
  | ok packed =>
    obtain ⟨-, -, -, -, hle, -⟩ := packPipeline_ok hvalues hpack
    omega

theorem pack_outcome {engine : DataEngine} {requestId : RequestId} (hfresh : engine.Fresh requestId)
    (ts : JsDouble) (values : List (Value Obj)) :
    outcome ((code.pack streams requestId ts values).run engine) =
      slotted engine (do
        let chunks ← code.packPipeline streams engine.limits ts values
        code.emitAudit (engine.started requestId) requestId .pack .stream
        return chunks) :=
  request_outcome hfresh rfl _

theorem unpack_outcome {engine : DataEngine} {requestId : RequestId}
    (hfresh : engine.Fresh requestId) (input : List Bytes) :
    outcome ((code.unpack streams requestId input).run engine) =
      slotted engine (do
        let values ← code.unpackPipeline streams engine.limits input
        code.emitAudit (engine.started requestId) requestId .unpack .stream
        return values) :=
  request_outcome hfresh rfl _

/-- What `pack` has made of some values `unpack` gives back under the same limits,
    however the bytes are cut.  More values than `maxFrames` are refused by both. -/
theorem unpack_pack {code' : EngineCode Obj} (hhost : code'.host = code.host)
    (hconcat : streams.Concatenates code.host) {ts : JsDouble}
    (hmanifest : manifestOf code.host (streams.literal ⟨[], ts⟩) = some ⟨[], ts⟩)
    {values : List (Value Obj)} (hinverts : Inverts code.host (streams.literal ⟨[], ts⟩ :: values))
    {engine engine' : DataEngine} (hlimits : engine'.limits = engine.limits)
    {packId unpackId : RequestId} (hpackId : engine.Fresh packId)
    (hunpackId : engine'.Fresh unpackId) :
    (∀ packed input, code'.schema = none →
      outcome ((code.pack streams packId ts values).run engine) = .ok packed →
      packed.flatten.length ≤ engine.limits.maxInputBytes → input.flatten = packed.flatten →
      code'.unpackPipeline streams engine'.limits input = .ok values ∧
        outcome ((code'.unpack streams unpackId input).run engine') =
          slotted engine' ((code'.emitAudit (engine'.started unpackId) unpackId .unpack .stream).map
            fun _ => values)) ∧
    (engine.limits.maxFrames < values.length →
      (∃ e, outcome ((code.pack streams packId ts values).run engine) = .error e) ∧
      ∀ first frame encodings input, isManifest code.host first = true →
        Encodes code.host first frame → List.Forall₂ (Encodes code.host) values encodings →
        input.flatten = (frame :: encodings).flatten →
        ∃ e, outcome ((code'.unpack streams unpackId input).run engine') = .error e) := by
  have hvalues : ∀ value ∈ values, value.isNullish = false := fun value hvalue =>
    (hinverts value (List.mem_cons_of_mem _ hvalue)).1
  constructor
  -- back: what `pack` has resolved to went through its pipeline
  · intro packed input hschema hpacked hle hinput
    rw [pack_outcome hpackId, slotted] at hpacked
    obtain ⟨-, hpacked⟩ := guard_or_ok hpacked
    obtain ⟨chunks, hchunks, hpacked⟩ := bind_ok hpacked
    obtain ⟨-, -, hpacked⟩ := bind_ok hpacked
    cases hpacked
    have hpack : code'.packPipeline streams engine'.limits ts values = .ok packed := by
      rw [hlimits, ← hchunks]
      simp only [packPipeline, hhost]
    rw [← hhost] at hconcat hmanifest hinverts
    rw [← hlimits] at hle
    have hunpack := unpackPipeline_packed hconcat hschema hmanifest hinverts hpack hle hinput
    refine ⟨hunpack, ?_⟩
    rw [unpack_outcome hunpackId, hunpack]
    rfl
  -- too many values, in either direction
  · intro hcount
    constructor
    · obtain ⟨e, he⟩ := packPipeline_exceeds hvalues hcount
      rw [pack_outcome hpackId, he]
      exact slotted_error engine e
    · intro first frame encodings input hfirst hencode hencodes hinput
      rw [← hhost] at hconcat hfirst hencode hencodes
      rw [← hlimits] at hcount
      obtain ⟨e, he⟩ := unpackPipeline_exceeds hconcat hfirst hencode hencodes hinput hcount
      rw [unpack_outcome hunpackId, he]
      exact slotted_error engine' e

/-! ## A host that packs manifests -/

/-- `{ __pipex_v: 1, plugins: [], ts: 0 }` as msgpackr writes it. -/
def sampleManifest : Bytes :=
  [0xde, 0x00, 0x03, 0xa9, 0x5f, 0x5f, 0x70, 0x69, 0x70, 0x65, 0x78, 0x5f, 0x76, 0x01,
    0xa7, 0x70, 0x6c, 0x75, 0x67, 0x69, 0x6e, 0x73, 0x90, 0xa2, 0x74, 0x73, 0x00]

def packingHost : Host SampleObject :=
  { sampleHost with
    pack := fun
      | .object .manifest => .ok sampleManifest
      | .undefined => .ok [0xd4, 0x00, 0x00]
      | _ => .error (plainError "unsupported value")
    unpack := fun bytes =>
      if bytes = sampleManifest then some (.object .manifest)
      else if bytes = [0xd4, 0x00, 0x00] then some .undefined
      else none }

/-- A stream that reads manifests, once it has got all of them. -/
def manifestReader : Transform Nat Bytes (Value SampleObject) JsError where
  transform received chunk := pure (received + chunk.length)
  flush received :=
    ⟨List.replicate (received / sampleManifest.length) (.object .manifest), .ok ()⟩

theorem manifestReader_complete (received : Nat) (chunks : List Bytes) :
    manifestReader.complete received chunks =
      manifestReader.flush (received + chunks.flatten.length) := by
  induction chunks generalizing received with
  | nil => rfl
  | cons chunk chunks ih =>
    rw [Transform.complete_cons, List.flatten_cons, List.length_append,
      ← Nat.add_assoc]
    exact ih (received + chunk.length)

def sampleStreams : MsgpackStreams SampleObject := ⟨fun _ => .object .manifest, Nat, manifestReader, 0⟩

theorem sampleStreams_concatenates : sampleStreams.Concatenates packingHost := by
  have hmanifests : ∀ values encodings, List.Forall₂ (Encodes packingHost) values encodings →
      values = List.replicate values.length (.object .manifest) ∧
        encodings.flatten.length = values.length * sampleManifest.length := by
    intro values encodings h
    induction h with
    | nil => exact ⟨rfl, rfl⟩
    | @cons value encoded values encodings hencodes _ ih =>
      obtain ⟨hpresent, hpacked, -⟩ := hencodes
      obtain ⟨rfl, rfl⟩ : value = .object .manifest ∧ encoded = sampleManifest := by
        match value, hpresent, hpacked with
        | .object .manifest, _, hpacked => exact ⟨rfl, (Except.ok.inj hpacked).symm⟩
      rw [List.length_cons, List.replicate_succ, ← ih.1, List.flatten_cons, List.length_append, ih.2]
      exact ⟨rfl, by rw [Nat.succ_mul, Nat.add_comm]⟩
  intro values encodings chunks hencodes hchunks
  -- as many manifests as their bytes have room for
  obtain ⟨hvalues, hlength⟩ := hmanifests values encodings hencodes
  show manifestReader.complete 0 chunks = _
  rw [manifestReader_complete, hchunks, hlength, Nat.zero_add]
  show (⟨List.replicate (values.length * sampleManifest.length / sampleManifest.length) _,
    .ok ()⟩ : Emit (Value SampleObject) JsError Unit) = _
  rw [Nat.mul_div_cancel _ (by decide), ← hvalues]

def packingCode : EngineCode SampleObject := ⟨packingHost, [], none, none⟩

/-- A value that is itself shaped like a manifest, in two pieces. -/
theorem unpack_pack_manifest :
    ∃ packed, outcome ((packingCode.pack sampleStreams 0 (.integer 0) [.object .manifest]).run
        (sampleEngine packingCode)) = .ok packed ∧
      packingCode.unpackPipeline sampleStreams defaultLimits
        [packed.flatten.take 30, packed.flatten.drop 30] = .ok [.object .manifest] := by
  obtain ⟨packed, hpacked, hle⟩ : ∃ packed,
      outcome ((packingCode.pack sampleStreams 0 (.integer 0) [.object .manifest]).run
        (sampleEngine packingCode)) = .ok packed ∧
      packed.flatten.length ≤ defaultLimits.maxInputBytes := ⟨_, rfl, by decide⟩
  refine ⟨packed, hpacked, ((unpack_pack rfl sampleStreams_concatenates rfl ?_ rfl
    (sampleEngine_fresh _ 0) (sampleEngine_fresh _ 1)).1 packed _ rfl hpacked hle ?_).1⟩
  · intro value hvalue
    have hmanifest : value = .object .manifest := by simpa [sampleStreams] using hvalue
    rw [hmanifest]
    refine ⟨rfl, fun encoded hencoded => ?_⟩
    cases hencoded
    rfl
  · simp

/-- A stream drops `undefined`, which msgpackr packs and unpacks. -/
theorem unpack_pack_undefined :
    sampleStreams.Concatenates packingHost ∧
      (∀ encoded, packingHost.pack .undefined = .ok encoded →
        packingHost.unpack encoded = some .undefined) ∧
      outcome ((packingCode.pack sampleStreams 0 (.integer 0) [.undefined]).run
        (sampleEngine packingCode)) = .ok [sampleManifest] ∧
      outcome ((packingCode.unpack sampleStreams 1 [sampleManifest]).run
        (sampleEngine packingCode)) = .ok [] := by
  refine ⟨sampleStreams_concatenates, ?_, rfl, rfl⟩
  intro encoded hencoded
  cases hencoded
  rfl

end EngineCode
end PipeX
