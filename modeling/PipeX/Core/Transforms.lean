/-
  PipeX.Core.Transforms

  The stages of `src/core/core.ts` that only look at what passes through them:
  the byte limit, the limit on application frames, the limit on single values,
  the manifest in front of a stream and its removal.
-/
import PipeX.Core.Value
import PipeX.Lib.Pipeline

namespace PipeX

open Chunked

/-! ## Limits -/

/-- `buildByteLimitTransform(maxBytes, label)`; the state is `total`. -/
def buildByteLimitTransform (maxBytes : Nat) (label : String) : Transform Nat Bytes Bytes JsError where
  transform total chunk :=
    if chunk.length > maxBytes - total then
      Emit.fail (plainError s!"[PipeX] {label} exceeds {maxBytes} bytes")
    else do
      Emit.push chunk
      return total + chunk.length
  flush _ := pure ()

/-- The same limit on the whole. -/
def limitBytes (maxBytes : Nat) (label : String) (data : Bytes) : Except JsError Bytes :=
  if data.length > maxBytes then
    .error (plainError s!"[PipeX] {label} exceeds {maxBytes} bytes")
  else
    .ok data

variable {maxBytes : Nat} {label : String}

theorem limitBytes_fits {data : Bytes} (h : ¬ data.length > maxBytes) :
    limitBytes maxBytes label data = .ok data := if_neg h

theorem limitBytes_exceeds {data : Bytes} (h : data.length > maxBytes) :
    limitBytes maxBytes label data =
      .error (plainError s!"[PipeX] {label} exceeds {maxBytes} bytes") := if_pos h

theorem byteLimit_complete (chunks : List Bytes) :
    (chunks.flatten.length ≤ maxBytes →
      (buildByteLimitTransform maxBytes label).complete 0 chunks = ⟨chunks, .ok ()⟩) ∧
    (maxBytes < chunks.flatten.length →
      ∃ e, ((buildByteLimitTransform maxBytes label).complete 0 chunks).result = .error e) := by
  have hbudget : buildByteLimitTransform maxBytes label =
      budget List.length maxBytes (plainError s!"[PipeX] {label} exceeds {maxBytes} bytes")
        Emit.push := rfl
  rw [hbudget, List.length_flatten]
  exact budget_completed fun _ _ => rfl

/-- The stage is the limit on the whole, however its input is cut. -/
theorem byteLimit_computes (maxBytes : Nat) (label : String) :
    Stage.Computes ((buildByteLimitTransform maxBytes label).complete 0)
      (limitBytes maxBytes label) := by
  intro chunks
  obtain ⟨hfits, hexceeds⟩ := @byteLimit_complete maxBytes label chunks
  by_cases h : chunks.flatten.length > maxBytes
  · obtain ⟨e, he⟩ := hexceeds h
    rw [limitBytes_exceeds h]
    apply Emit.delivers_error
    rintro ⟨_, hok⟩
    rw [he] at hok
    cases hok
  · rw [limitBytes_fits h, hfits (Nat.le_of_not_lt h)]
    exact Emit.delivers_ok rfl rfl

/-! ## Objects -/

variable {Obj : Type} (host : Host Obj)

/-- `value == null`. -/
def Value.isNullish : Value Obj → Bool
  | .undefined => true
  | .null => true
  | _ => false

/-- `callback(null, value)` of a stage in object mode, which pushes no `undefined`. -/
def forward (value : Value Obj) : Emit (Value Obj) JsError Unit :=
  if value.isNullish then pure () else Emit.push value

/-- `new PassThrough({ objectMode: true })`; writing `null` fails. -/
def passThrough : Transform Unit (Value Obj) (Value Obj) JsError :=
  each fun value =>
    match value with
    | .null => Emit.fail (plainError "May not write null values to stream")
    | value => forward value

/-- `buildObjectLimitTransform(maxFrames)`; the state is `count`. -/
def buildObjectLimitTransform (maxFrames : Nat) : Transform Nat (Value Obj) (Value Obj) JsError where
  transform count value :=
    if count ≥ maxFrames then
      Emit.fail (plainError s!"[PipeX] Application frame count exceeds {maxFrames}")
    else do
      forward value
      return count + 1
  flush _ := pure ()

theorem forward_eq {value : Value Obj} (h : value.isNullish = false) :
    forward value = Emit.push value := by
  rw [forward, h]
  rfl

theorem passThrough_completed {values : List (Value Obj)}
    (h : ∀ value ∈ values, value.isNullish = false) :
    (passThrough.complete () values).completed = .ok values := by
  apply each_push
  intro value hvalue
  have hpresent := h value hvalue
  cases value with
  | null => cases hpresent
  | undefined => cases hpresent
  | _ => rfl

theorem objectLimit_complete {maxFrames : Nat} {values : List (Value Obj)}
    (h : ∀ value ∈ values, value.isNullish = false) :
    (values.length ≤ maxFrames →
      (buildObjectLimitTransform maxFrames).complete 0 values = ⟨values, .ok ()⟩) ∧
    (maxFrames < values.length →
      ∃ e, ((buildObjectLimitTransform maxFrames).complete 0 values).result = .error e) := by
  have hbudget : (buildObjectLimitTransform maxFrames : Transform Nat (Value Obj) _ _) =
      budget (fun _ => 1) maxFrames
        (plainError s!"[PipeX] Application frame count exceeds {maxFrames}") forward := by
    have hfull : ∀ count, count ≥ maxFrames ↔ 1 > maxFrames - count := by
      intro count
      omega
    simp only [buildObjectLimitTransform, budget, hfull]
  have hlength : (values.map fun _ => 1).sum = values.length := by simp
  rw [hbudget, ← hlength]
  exact budget_completed fun value hvalue => forward_eq (h value hvalue)

def buildKnownValueByteLimitTransform (maxBytes : Nat) (label : String) :
    Transform Unit (Value Obj) (Value Obj) JsError :=
  each fun value => do
    assertKnownValueByteLimit host value maxBytes label
    forward value

theorem knownValueByteLimit_completed {maxBytes : Nat} {label : String}
    {values passed : List (Value Obj)} (hvalues : ∀ value ∈ values, value.isNullish = false)
    (h : ((buildKnownValueByteLimitTransform host maxBytes label).complete () values).completed =
      .ok passed) : passed = values := by
  have hchecked : ((buildKnownValueByteLimitTransform host maxBytes label).complete ()
      values).completed = values.mapM fun value =>
        assertKnownValueByteLimit host value maxBytes label >>= fun _ => .ok value := by
    apply each_completed
    intro value hvalue
    rw [Emit.ofExcept_bind, bind_assoc, forward_eq (hvalues value hvalue)]
    rfl
  rw [hchecked] at h
  refine eq_of_mapM (fun value passed hpassed => ?_) h
  obtain ⟨-, -, hok⟩ := Outcomes.bind_ok hpassed
  cases hok
  rfl

/-! ## Manifests -/

/-- `buildManifestHeaderTransform(manifest)`; `frame` is the packed manifest and the
    state is `sent`. -/
def buildManifestHeaderTransform (frame : Bytes) : Transform Bool Bytes Bytes JsError where
  transform sent chunk := do
    if !sent then
      Emit.push frame
    Emit.push chunk
    return true
  flush sent := if !sent then Emit.push frame else pure ()

/-- `buildManifestExtractTransform(onManifest)`; the state is `seen`. -/
def buildManifestExtractTransform (onManifest : PipeXManifest → Except JsError Unit) :
    Transform Bool (Value Obj) (Value Obj) JsError where
  transform seen frame :=
    match seen, manifestOf host frame with
    | false, some manifest => do
      onManifest manifest
      return true
    | _, _ => do
      forward frame
      return true
  flush _ := pure ()

/-- The manifest comes first, also where nothing follows it. -/
theorem manifestHeader_complete (frame : Bytes) (chunks : List Bytes) :
    (buildManifestHeaderTransform frame).complete false chunks = ⟨frame :: chunks, .ok ()⟩ := by
  have hsent : ∀ chunks, (buildManifestHeaderTransform frame).complete true chunks =
      ⟨chunks, .ok ()⟩ := by
    intro chunks
    induction chunks with
    | nil => rfl
    | cons chunk chunks ih =>
      rw [Transform.complete_cons]
      show (⟨[chunk], .ok true⟩ : Emit Bytes JsError Bool) >>= (fun sent =>
        (buildManifestHeaderTransform frame).complete sent chunks) = _
      rw [Emit.bind_ok rfl, ih]
      rfl
  cases chunks with
  | nil => rfl
  | cons chunk chunks =>
    rw [Transform.complete_cons]
    show (⟨[frame, chunk], .ok true⟩ : Emit Bytes JsError Bool) >>= (fun sent =>
      (buildManifestHeaderTransform frame).complete sent chunks) = _
    rw [Emit.bind_ok rfl, hsent]
    rfl

/-- Behind the first frame everything is passed on. -/
theorem manifestExtract_seen {onManifest : PipeXManifest → Except JsError Unit}
    {values : List (Value Obj)} (h : ∀ value ∈ values, value.isNullish = false) :
    (buildManifestExtractTransform host onManifest).complete true values = ⟨values, .ok ()⟩ := by
  induction values with
  | nil => rfl
  | cons value values ih =>
    rw [Transform.complete_cons]
    show (forward value >>= fun _ => pure true) >>= (fun seen =>
      (buildManifestExtractTransform host onManifest).complete seen values) = _
    rw [forward_eq (h value (List.mem_cons_self ..)), bind_assoc, Emit.bind_ok rfl,
      Emit.pure_bind', ih fun v hv => h v (List.mem_cons_of_mem _ hv)]
    rfl

/-- Only the first frame can be taken for the manifest. -/
theorem manifestExtract_complete {onManifest : PipeXManifest → Except JsError Unit}
    {first : Value Obj} {manifest : PipeXManifest} (hfirst : manifestOf host first = some manifest)
    {values : List (Value Obj)} (h : ∀ value ∈ values, value.isNullish = false) :
    (buildManifestExtractTransform host onManifest).complete false (first :: values) =
      Emit.ofExcept (onManifest manifest) >>= fun _ => ⟨values, .ok ()⟩ := by
  rw [Transform.complete_cons]
  simp only [buildManifestExtractTransform, hfirst]
  show (Emit.ofExcept (onManifest manifest) >>= fun _ => pure true) >>= (fun seen =>
    (buildManifestExtractTransform host onManifest).complete seen values) = _
  rw [bind_assoc]
  refine Emit.bind_congr' fun _ _ => ?_
  rw [Emit.pure_bind', manifestExtract_seen host h]

end PipeX
