/-
  PipeX.Core.Controllers.FilePackages

  The pipelines of `pack` and `unpack` in `src/core/controllers/FileController.ts`, and
  the NDJSON that `unpack` writes.

  `pack` makes a frame of every chunk of the input file; `unpack` writes a line for
  every value behind the manifest.

  * `ndjson_splits` — the lines of a text are the values that it was made of.
  * `fileUnpack_packed` — what comes out of `unpack` for a file that `pack` has written.
-/
import PipeX.Core.Controllers.ObjectStreams

namespace PipeX

open Chunked DataEngine Outcomes FrameLimits

/-- `JSON.stringify(value)`: a text or `undefined`, or the message of what it throws. -/
abbrev Stringify (Obj : Type) : Type := Value Obj → Except String (Option JsString)

section Ndjson

variable {Obj : Type} (host : Host Obj) (stringify : Stringify Obj)

/-- `'undefined'`, which is what `undefined` is concatenated as. -/
def undefinedText : JsString := [0x75, 0x6e, 0x64, 0x65, 0x66, 0x69, 0x6e, 0x65, 0x64]

/-- `JSON.stringify(chunk) + '\n'` without the last character. -/
def lineText (value : Value Obj) : Except JsError JsString :=
  match stringify value with
  | .ok text => .ok (text.getD undefinedText)
  | .error message => .error (plainError s!"[PipeX] NDJSON: {message}")

def newline : JsString := [0x0a]

/-- `buildNdjsonTransform()`. -/
def buildNdjsonTransform : Transform Unit (Value Obj) Bytes JsError :=
  each fun value => do
    let text ← lineText stringify value
    Emit.push (host.encodeUtf8 (text ++ newline))

/-- What a line relies on: no text of JSON contains a line feed, and UTF-8 keeps line
    feeds apart from everything else. -/
structure WritesLines : Prop where
  text : ∀ value text, stringify value = .ok (some text) → 0x0a ∉ text
  encoded : ∀ text : JsString, 0x0a ∉ text →
    host.encodeUtf8 (text ++ newline) = host.encodeUtf8 text ++ [0x0a] ∧
      0x0a ∉ host.encodeUtf8 text

variable {host stringify}

theorem WritesLines.lineText (h : WritesLines host stringify) {value : Value Obj} {text : JsString}
    (htext : lineText stringify value = .ok text) : 0x0a ∉ text := by
  unfold PipeX.lineText at htext
  cases hstringify : stringify value with
  | error message =>
    rw [hstringify] at htext
    cases htext
  | ok result =>
    rw [hstringify] at htext
    cases htext
    cases result with
    | none => decide
    | some text => exact h.text value text hstringify

/-- The stage writes one line for each value. -/
theorem ndjson_completed {values : List (Value Obj)} {chunks : List Bytes}
    (h : ((buildNdjsonTransform host stringify).complete () values).completed = .ok chunks) :
    ∃ texts, List.Forall₂ (fun value text => lineText stringify value = .ok text) values texts ∧
      chunks = texts.map fun text => host.encodeUtf8 (text ++ newline) := by
  have hmapM : ((buildNdjsonTransform host stringify).complete () values).completed =
      values.mapM fun value => (lineText stringify value).map
        fun text => host.encodeUtf8 (text ++ newline) := by
    apply each_completed
    intro value _
    cases lineText stringify value with
    | error e => rfl
    | ok text => rfl
  rw [hmapM] at h
  have hlines := forall₂_of_mapM h
  clear h hmapM
  induction hlines with
  | nil => exact ⟨[], .nil, rfl⟩
  | @cons value chunk values chunks hchunk _ ih =>
    obtain ⟨texts, htexts, rfl⟩ := ih
    cases htext : lineText stringify value with
    | error e =>
      rw [htext] at hchunk
      cases hchunk
    | ok text =>
      rw [htext] at hchunk
      cases hchunk
      exact ⟨text :: texts, .cons htext htexts, rfl⟩

/-- Split at its line feeds, the text is the values again, and nothing behind the last. -/
theorem ndjson_splits (h : WritesLines host stringify) {values : List (Value Obj)}
    {texts : List JsString}
    (htexts : List.Forall₂ (fun value text => lineText stringify value = .ok text) values texts) :
    (texts.map fun text => host.encodeUtf8 (text ++ newline)).flatten.splitOn 0x0a =
      texts.map host.encodeUtf8 ++ [[]] := by
  induction htexts with
  | nil => rfl
  | @cons value text values texts htext _ ih =>
    obtain ⟨hencoded, hfree⟩ := h.encoded text (h.lineText htext)
    rw [List.map_cons, List.flatten_cons, hencoded, List.append_assoc, List.singleton_append,
      List.splitOn_append_cons_self, List.splitOn_eq_singleton hfree, ih]
    rfl

end Ndjson

namespace EngineCode

variable {Obj : Type} (code : EngineCode Obj)

/-! ## The two pipelines -/

/-- `runPipeline(src, transforms, dst)` of `pack`; the chunks of the file come out of the
    first stage as buffers, and from there on they are values. -/
def filePackPipeline (streams : MsgpackStreams Obj) (limits : EngineLimits) (ts : JsDouble)
    (source : List Bytes) : Except JsError (List Bytes) := do
  let frame ← code.host.pack (streams.literal ⟨[], ts⟩)
  let chunks ← ((buildByteLimitTransform limits.maxInputBytes "input").complete 0
    (handOver source)).completed
  let values ← ((buildObjectLimitTransform limits.maxFrames).complete 0
    ((handOver chunks).map Value.buffer)).completed
  let values ← ((buildKnownValueByteLimitTransform code.host limits.maxFrameBytes
    "MessagePack frame").complete () values).completed
  let chunks ← ((createPackrStream code.host).complete () values).completed
  let chunks ← ((buildManifestHeaderTransform frame).complete false (handOver chunks)).completed
  let chunks ← ((buildFrameLimitTransform limits.maxFrameBytes (wireFrames limits)).complete
    .initial (handOver chunks)).completed
  ((buildByteLimitTransform limits.maxOutputBytes "output").complete 0 (handOver chunks)).completed

/-- `runPipeline(src, transforms, dst)` of `unpack`; up to `validate` its stages are those
    of `unpack` on streams. -/
def fileUnpackPipeline (streams : MsgpackStreams Obj) (stringify : Stringify Obj)
    (limits : EngineLimits) (source : List Bytes) : Except JsError (List Bytes) := do
  let values ← code.unpackPipeline streams limits source
  let chunks ← ((buildNdjsonTransform code.host stringify).complete () values).completed
  ((buildByteLimitTransform limits.maxOutputBytes "output").complete 0 (handOver chunks)).completed

variable {code} {streams : MsgpackStreams Obj} {stringify : Stringify Obj} {limits : EngineLimits}
  {ts : JsDouble}

/-- A file goes through `pack` as its pieces do through `pack` on streams. -/
theorem filePackPipeline_ok {source packed : List Bytes}
    (h : code.filePackPipeline streams limits ts source = .ok packed) :
    ∃ pieces : List Bytes, pieces.flatten = source.flatten ∧
      code.packPipeline streams limits ts (pieces.map .buffer) = .ok packed := by
  simp only [filePackPipeline] at h
  obtain ⟨frame, hframe, h⟩ := bind_ok h
  obtain ⟨chunks, hchunks, h⟩ := bind_ok h
  obtain ⟨-, rfl⟩ := byteLimit_completed.mp hchunks
  refine ⟨handOver (handOver source), by rw [flatten_handOver, flatten_handOver], ?_⟩
  have hvalues : ∀ value ∈ ((handOver (handOver source)).map Value.buffer : List (Value Obj)),
      value.isNullish = false := by
    intro value hvalue
    obtain ⟨piece, -, rfl⟩ := List.mem_map.mp hvalue
    rfl
  rw [packPipeline, hframe]
  show (Emit.completed _ >>= _) = _
  rw [passThrough_completed hvalues]
  exact h

theorem fileUnpackPipeline_ok {source delivered : List Bytes}
    (h : code.fileUnpackPipeline streams stringify limits source = .ok delivered) :
    ∃ values texts, code.unpackPipeline streams limits source = .ok values ∧
      List.Forall₂ (fun value text => lineText stringify value = .ok text) values texts ∧
      delivered.flatten =
        (texts.map fun text => code.host.encodeUtf8 (text ++ newline)).flatten := by
  simp only [fileUnpackPipeline] at h
  obtain ⟨values, hvalues, h⟩ := bind_ok h
  obtain ⟨chunks, hchunks, h⟩ := bind_ok h
  obtain ⟨-, rfl⟩ := byteLimit_completed.mp h
  obtain ⟨texts, htexts, rfl⟩ := ndjson_completed hchunks
  exact ⟨values, texts, hvalues, htexts, flatten_handOver _⟩

/-- What `unpack` makes of what `pack` has made of a file: a line for each piece of the
    file, however the package is read. -/
theorem fileUnpack_packed {code' : EngineCode Obj} (hhost : code'.host = code.host)
    (hschema : code'.schema = none) (hlines : WritesLines code.host stringify)
    (hconcat : streams.Concatenates code.host)
    (hmanifest : manifestOf code.host (streams.literal ⟨[], ts⟩) = some ⟨[], ts⟩)
    (hliteral : Inverts code.host [streams.literal ⟨[], ts⟩])
    (hbuffers : ∀ bytes, Inverts code.host [.buffer bytes])
    {source packed input delivered : List Bytes}
    (hpack : code.filePackPipeline streams limits ts source = .ok packed)
    (hinput : input.flatten = packed.flatten)
    (hunpack : code'.fileUnpackPipeline streams stringify limits input = .ok delivered) :
    ∃ (pieces : List Bytes) (texts : List JsString), pieces.flatten = source.flatten ∧
      List.Forall₂ (fun piece text => lineText stringify (.buffer piece) = .ok text) pieces texts ∧
      delivered.flatten.splitOn 0x0a = texts.map code.host.encodeUtf8 ++ [[]] := by
  obtain ⟨pieces, hpieces, hpacked⟩ := filePackPipeline_ok hpack
  obtain ⟨values, texts, hvalues, htexts, hdelivered⟩ := fileUnpackPipeline_ok hunpack
  have hinverts : Inverts code'.host (streams.literal ⟨[], ts⟩ :: pieces.map .buffer) := by
    rw [hhost]
    intro value hvalue
    rcases List.mem_cons.mp hvalue with rfl | hvalue
    · exact hliteral _ (List.mem_singleton_self _)
    · obtain ⟨piece, -, rfl⟩ := List.mem_map.mp hvalue
      exact hbuffers piece _ (List.mem_singleton_self _)
  have hpacked : code'.packPipeline streams limits ts (pieces.map .buffer) = .ok packed := by
    rw [← hpacked]
    simp only [packPipeline, hhost]
  rw [← hhost] at hconcat hmanifest
  -- a package that is too long is refused
  have hle : packed.flatten.length ≤ limits.maxInputBytes := hinput ▸ (unpackPipeline_fits hvalues).1
  have hsame := unpackPipeline_packed hconcat hschema hmanifest hinverts hpacked hle hinput
  cases hvalues.symm.trans hsame
  refine ⟨pieces, texts, hpieces, List.forall₂_map_left_iff.mp htexts, ?_⟩
  rw [hdelivered, hhost]
  exact ndjson_splits hlines htexts

/-! ## A host that packs single bytes -/

/-- `{"type":"Buffer","data":[7]}`, with this digit. -/
def sampleText (digit : UInt16) : JsString :=
  [0x7b, 0x22, 0x74, 0x79, 0x70, 0x65, 0x22, 0x3a, 0x22, 0x42, 0x75, 0x66, 0x66, 0x65, 0x72, 0x22,
    0x2c, 0x22, 0x64, 0x61, 0x74, 0x61, 0x22, 0x3a, 0x5b, digit, 0x5d, 0x7d]

def sampleStringify : Stringify SampleObject
  | .buffer [7] => .ok (some (sampleText 0x37))
  | .buffer [8] => .ok (some (sampleText 0x38))
  | _ => .error "unsupported value"

def bufferHost : Host SampleObject :=
  { packingHost with
    encodeUtf8 := fun text => text.map fun unit => if unit < 0x80 then unit.toUInt8 else 0x3f
    pack := fun
      | .object .manifest => .ok sampleManifest
      | .buffer [byte] => .ok [0xc4, 0x01, byte]
      | _ => .error (plainError "unsupported value")
    unpack := fun
      | [0xc4, 0x01, byte] => some (.buffer [byte])
      | bytes => if bytes = sampleManifest then some (.object .manifest) else none }

theorem bufferHost_pack {value : Value SampleObject} {encoded : Bytes}
    (h : bufferHost.pack value = .ok encoded) :
    (value = .object .manifest ∧ encoded = sampleManifest) ∨
      ∃ byte, value = .buffer [byte] ∧ encoded = [0xc4, 0x01, byte] := by
  match value, h with
  | .object .manifest, h => exact .inl ⟨rfl, (Except.ok.inj h).symm⟩
  | .buffer [byte], h => exact .inr ⟨byte, rfl, (Except.ok.inj h).symm⟩

/-- The values in concatenated encodings, behind so many bytes. -/
def readValues : Nat → Bytes → List (Value SampleObject)
  | _, [] => []
  | skipped + 1, _ :: rest => readValues skipped rest
  | 0, byte :: rest =>
    if byte = 0xc4 then .buffer ((rest.drop 1).take 1) :: readValues 2 rest
    else .object .manifest :: readValues 26 rest

/-- A stream that reads them, once it has got all of them. -/
def bufferReader : Transform Bytes Bytes (Value SampleObject) JsError where
  transform received chunk := pure (received ++ chunk)
  flush received := ⟨readValues 0 received, .ok ()⟩

theorem bufferReader_complete (received : Bytes) (chunks : List Bytes) :
    bufferReader.complete received chunks = bufferReader.flush (received ++ chunks.flatten) := by
  induction chunks generalizing received with
  | nil =>
    rw [List.flatten_nil, List.append_nil]
    rfl
  | cons chunk chunks ih =>
    rw [Transform.complete_cons, List.flatten_cons, ← List.append_assoc]
    exact ih (received ++ chunk)

def bufferStreams : MsgpackStreams SampleObject :=
  ⟨fun _ => .object .manifest, Bytes, bufferReader, []⟩

theorem bufferStreams_concatenates : bufferStreams.Concatenates bufferHost := by
  intro values encodings chunks hencodes hchunks
  show bufferReader.complete [] chunks = _
  rw [bufferReader_complete, hchunks, List.nil_append]
  clear hchunks
  have hread : readValues 0 encodings.flatten = values := by
    induction hencodes with
    | nil => rfl
    | cons hencode _ ih =>
      rcases bufferHost_pack hencode.packed with ⟨rfl, rfl⟩ | ⟨byte, rfl, rfl⟩
      · exact congrArg (.object .manifest :: ·) ih
      · exact congrArg (.buffer [byte] :: ·) ih
  exact congrArg (fun values => (⟨values, .ok ()⟩ : Emit (Value SampleObject) JsError Unit)) hread

theorem bufferHost_inverts {value : Value SampleObject} (hpresent : value.isNullish = false) :
    Inverts bufferHost [value] := by
  intro value' hvalue
  rw [List.mem_singleton.mp hvalue]
  refine ⟨hpresent, fun encoded h => ?_⟩
  rcases bufferHost_pack h with ⟨rfl, rfl⟩ | ⟨byte, rfl, rfl⟩
  · rfl
  · rfl

theorem bufferHost_writesLines : WritesLines bufferHost sampleStringify where
  text value text h := by
    unfold sampleStringify at h
    split at h
    · cases h
      decide
    · cases h
      decide
    · cases h
  encoded text hfree := by
    constructor
    · exact List.map_append
    · intro hmem
      obtain ⟨unit, hunit, hbyte⟩ := List.mem_map.mp hmem
      split at hbyte
      · rename_i hascii
        have : unit = 0x0a := by
          rw [← UInt8.toNat_inj] at hbyte
          rw [← UInt16.toNat_inj]
          have := UInt16.lt_iff_toNat_lt.mp hascii
          simp at hbyte this ⊢
          omega
        exact hfree (this ▸ hunit)
      · cases hbyte

end EngineCode
end PipeX
