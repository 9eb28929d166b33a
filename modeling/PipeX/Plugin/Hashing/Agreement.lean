/-
  PipeX.Plugin.Hashing.Agreement

  The streams of `HashingPlugin` do what its buffer methods do.

  * `process_eq_ok`, `reverse_eq_ok` — what the buffer methods accept and return.
  * `compress_fits`, `decompress_run` — the runs of the streams, for any cut of their
    input; `decompress_verified` is the order of comparison and push.
-/
import PipeX.Plugin.Hashing.Hmac

namespace PipeX.HashingPlugin

open Chunked

variable (plugin : HashingPlugin) (hmac : Hmac) (limits : Option EngineLimits)

@[simp] theorem length_digest (data : Bytes) : (plugin.digest hmac data).length = plugin.len :=
  hmac.length_digest _ _ _

/-! ## Buffers -/

/-- The limits of the forward direction. -/
def Fits (length : Nat) : Prop :=
  length ≤ pluginInputLimit limits ∧ length + plugin.len ≤ pluginOutputLimit limits

theorem process_of_fits {data : Bytes} (h : plugin.Fits limits data.length) :
    plugin.process hmac limits data =
      ⟨[.metadata "hmac" (hexText (plugin.digest hmac data))],
        .ok (data ++ plugin.digest hmac data)⟩ := by
  obtain ⟨hin, hout⟩ := h
  have hin' : ¬ data.length > pluginInputLimit limits := Nat.not_lt_of_le hin
  have hout' : ¬ (data.length : Int) > (pluginOutputLimit limits : Int) - plugin.len := by omega
  simp only [process, if_neg hin', if_neg hout']
  rfl

theorem process_exceeds {data : Bytes} (h : ¬ plugin.Fits limits data.length) :
    ¬ (plugin.process hmac limits data).Succeeds := by
  simp only [Fits, not_and_or, Nat.not_le] at h
  rcases h with hin | hout
  · simp only [process, if_pos hin, Emit.fail_bind]
    exact Emit.not_succeeds_fail _
  · have hout' : (data.length : Int) > (pluginOutputLimit limits : Int) - plugin.len := by omega
    simp only [process, if_pos hout', Emit.fail_bind]
    -- the first check may fail as well
    split
    · exact Emit.not_succeeds_fail _
    · exact Emit.not_succeeds_fail _

theorem process_eq_ok {data out : Bytes} :
    (plugin.process hmac limits data).result = .ok out ↔
      plugin.Fits limits data.length ∧ out = data ++ plugin.digest hmac data := by
  by_cases h : plugin.Fits limits data.length
  · rw [process_of_fits plugin hmac limits h]
    constructor
    · intro hresult
      cases hresult
      exact ⟨h, rfl⟩
    · rintro ⟨-, rfl⟩
      rfl
  · constructor
    · intro hresult
      exact absurd ⟨out, hresult⟩ (process_exceeds plugin hmac limits h)
    · rintro ⟨hfits, -⟩
      exact absurd hfits h

/-- Data and its digest, within the limits of the reverse direction. -/
structure Sealed (data out : Bytes) : Prop where
  input_le : data.length ≤ pluginInputLimit limits
  output_le : out.length ≤ pluginOutputLimit limits
  digest : data = out ++ plugin.digest hmac out

variable {plugin hmac limits} in
theorem Sealed.length_eq {data out : Bytes} (h : Sealed plugin hmac limits data out) :
    data.length = out.length + plugin.len := by
  rw [h.digest, List.length_append, length_digest]

variable {plugin hmac limits} in
/-- The two parts that the code cuts the data into. -/
theorem Sealed.parts {data out : Bytes} (h : Sealed plugin hmac limits data out) :
    data.take (data.length - plugin.len) = out ∧
      data.drop (data.length - plugin.len) = plugin.digest hmac out := by
  have hcut : data.length - plugin.len = out.length := by
    have hlength := h.length_eq
    omega
  rw [hcut, h.digest]
  exact ⟨List.take_left, List.drop_left⟩

theorem reverse_of_sealed {data out : Bytes} (h : Sealed plugin hmac limits data out) :
    plugin.reverse hmac limits data =
      ⟨[.compared (plugin.digest hmac out) (plugin.digest hmac out),
        .metadata "verified_hmac" (hexText (plugin.digest hmac out))], .ok out⟩ := by
  have hlength := h.length_eq
  have hout := h.output_le
  obtain ⟨htake, hdrop⟩ := h.parts
  have hin : ¬ data.length > pluginInputLimit limits := Nat.not_lt_of_le h.input_le
  have hshort : ¬ data.length < plugin.len := by omega
  have hlimit : ¬ data.length - plugin.len > pluginOutputLimit limits := by omega
  simp only [reverse, if_neg hin, if_neg hshort, if_neg hlimit, htake, hdrop, ne_eq,
    not_true_eq_false, if_false]
  rfl

theorem reverse_ok {data out : Bytes} (h : (plugin.reverse hmac limits data).result = .ok out) :
    Sealed plugin hmac limits data out := by
  -- the three checks in front of the comparison
  by_cases hin : data.length > pluginInputLimit limits
  · simp only [reverse, if_pos hin, Emit.fail_bind] at h
    cases h
  by_cases hshort : data.length < plugin.len
  · simp only [reverse, if_neg hin, if_pos hshort, Emit.fail_bind] at h
    cases h
  by_cases hlimit : data.length - plugin.len > pluginOutputLimit limits
  · simp only [reverse, if_neg hin, if_neg hshort, if_pos hlimit, Emit.fail_bind] at h
    cases h
  simp only [reverse, if_neg hin, if_neg hshort, if_neg hlimit] at h
  by_cases heq : data.drop (data.length - plugin.len) =
      plugin.digest hmac (data.take (data.length - plugin.len))
  · simp only [heq, ne_eq, not_true_eq_false, if_false] at h
    cases h
    -- the digest is that of what stands in front of it
    refine ⟨Nat.le_of_not_lt hin, ?_, ?_⟩
    · rw [List.length_take]
      omega
    · rw [← heq, List.take_append_drop]
  · obtain ⟨_, -, h, -⟩ := Emit.bind_eq_ok h
    rw [if_pos heq] at h
    cases h

theorem reverse_eq_ok {data out : Bytes} :
    (plugin.reverse hmac limits data).result = .ok out ↔ Sealed plugin hmac limits data out := by
  constructor
  · exact reverse_ok plugin hmac limits
  · intro h
    rw [reverse_of_sealed plugin hmac limits h]

/-- What `process` returns, `reverse` takes under the same limits. -/
theorem sealed_of_fits {data : Bytes} (h : plugin.Fits limits data.length) :
    Sealed plugin hmac limits (data ++ plugin.digest hmac data) data where
  input_le := by
    -- what may come out may go in
    have hle := pluginOutputLimit_le_pluginInputLimit limits
    have hout := h.2
    rw [List.length_append, length_digest]
    omega
  output_le := Nat.le_trans (Nat.le_add_right _ _) h.2
  digest := rfl

/-! ## Forward streams -/

theorem compressChunk_fits {s : CompressState} {chunk : Bytes}
    (h : plugin.Fits limits (s.total + chunk.length)) :
    plugin.compressChunk limits s chunk =
      ⟨[.push chunk], .ok ⟨s.total + chunk.length, s.hashed ++ chunk⟩⟩ := by
  obtain ⟨hin, hout⟩ := h
  have hin' : ¬ (chunk.length : Int) > (pluginInputLimit limits : Int) - s.total := by omega
  have hout' : ¬ (chunk.length : Int) >
      (pluginOutputLimit limits : Int) - plugin.len - s.total := by omega
  simp only [compressChunk, if_neg hin', if_neg hout']
  rfl

theorem compressChunk_exceeds {s : CompressState} {chunk : Bytes}
    (h : ¬ plugin.Fits limits (s.total + chunk.length)) :
    ¬ (plugin.compressChunk limits s chunk).Succeeds := by
  simp only [Fits, not_and_or, Nat.not_le] at h
  by_cases hin : (chunk.length : Int) > (pluginInputLimit limits : Int) - s.total
  · simp only [compressChunk, if_pos hin, Emit.fail_bind]
    exact Emit.not_succeeds_fail _
  · -- so the digest has no room left
    have hout : (chunk.length : Int) >
        (pluginOutputLimit limits : Int) - plugin.len - s.total := by omega
    simp only [compressChunk, if_neg hin, if_pos hout, Emit.fail_bind]
    exact Emit.not_succeeds_fail _

/-- A smaller total fits too. -/
theorem Fits.of_add {m n : Nat} (h : plugin.Fits limits (m + n)) : plugin.Fits limits m := by
  obtain ⟨hin, hout⟩ := h
  exact ⟨by omega, by omega⟩

/-- Chunks that fit are passed on and hashed. -/
theorem compress_feed_fits {s : CompressState} {chunks : List Bytes}
    (h : plugin.Fits limits (s.total + chunks.flatten.length)) :
    (plugin.compressor hmac limits).feed s chunks =
      ⟨chunks.map HashingEvent.push,
        .ok ⟨s.total + chunks.flatten.length, s.hashed ++ chunks.flatten⟩⟩ := by
  -- one chunk after another, over the total and what is hashed so far
  induction chunks generalizing s with
  | nil =>
    rw [List.flatten_nil, List.append_nil]
    rfl
  | cons chunk chunks ih =>
    rw [List.flatten_cons, List.length_append, ← Nat.add_assoc] at h ⊢
    have hchunk : (plugin.compressor hmac limits).transform s chunk = _ :=
      compressChunk_fits plugin limits (Fits.of_add plugin limits h)
    rw [Transform.feed_cons, hchunk, Emit.bind_ok rfl,
      ih (s := ⟨s.total + chunk.length, s.hashed ++ chunk⟩) h]
    simp only [List.map_cons, List.singleton_append, List.append_assoc]

/-- Chunks that do not fit are not all passed on. -/
theorem compress_feed_exceeds {s : CompressState} {chunks : List Bytes}
    (hs : plugin.Fits limits s.total)
    (h : ¬ plugin.Fits limits (s.total + chunks.flatten.length)) :
    ¬ ((plugin.compressor hmac limits).feed s chunks).Succeeds := by
  induction chunks generalizing s with
  | nil => exact absurd hs h
  | cons chunk chunks ih =>
    rw [List.flatten_cons, List.length_append, ← Nat.add_assoc] at h
    rw [Transform.feed_cons, Emit.succeeds_bind]
    rintro ⟨s', hchunk, hrest⟩
    by_cases hfits : plugin.Fits limits (s.total + chunk.length)
    -- the chunk fits: a later one does not
    · have hpass : (plugin.compressor hmac limits).transform s chunk = _ :=
        compressChunk_fits plugin limits hfits
      rw [hpass] at hchunk
      cases hchunk
      exact ih hfits h hrest
    · exact compressChunk_exceeds plugin limits hfits ⟨s', hchunk⟩

theorem compress_fits {chunks : List Bytes} (h : plugin.Fits limits chunks.flatten.length) :
    plugin.createStream hmac limits .compress chunks =
      ⟨chunks.map HashingEvent.push ++ [.push (plugin.digest hmac chunks.flatten)], .ok ()⟩ := by
  -- the digest alone fits, so the stream is constructed
  have hlen : ¬ pluginOutputLimit limits < plugin.len := by
    have hout := h.2
    omega
  have hfits : plugin.Fits limits (CompressState.start.total + chunks.flatten.length) := by
    simpa [CompressState.start] using h
  have hfeed := compress_feed_fits plugin hmac limits hfits
  simp only [createStream, if_neg hlen, Transform.complete, hfeed]
  rfl

/-- A budget that the digest alone exceeds fails the construction, and any other
    excess a chunk. -/
theorem compress_exceeds {chunks : List Bytes} (h : ¬ plugin.Fits limits chunks.flatten.length) :
    ¬ (plugin.createStream hmac limits .compress chunks).Succeeds := by
  simp only [createStream]
  split
  · exact Emit.not_succeeds_fail _
  -- the stream is constructed, so nothing fits in front of the digest
  rename_i hlen
  have hstart : plugin.Fits limits CompressState.start.total := by
    refine ⟨Nat.zero_le _, ?_⟩
    simp only [CompressState.start]
    omega
  rw [Transform.complete, Emit.succeeds_bind]
  rintro ⟨s, hfeed, -⟩
  exact compress_feed_exceeds plugin hmac limits hstart
    (by simpa [CompressState.start] using h) ⟨s, hfeed⟩

theorem delivered_compress {chunks : List Bytes}
    (h : plugin.Fits limits chunks.flatten.length) :
    delivered (plugin.createStream hmac limits .compress chunks) =
      chunks.flatten ++ plugin.digest hmac chunks.flatten := by
  -- what is pushed in front of the digest is the input
  have hpushed : (chunks.map HashingEvent.push).flatMap HashingEvent.pushed = chunks.flatten := by
    rw [List.flatMap_map]
    exact List.flatMap_id'
  rw [compress_fits plugin hmac limits h, delivered, List.flatMap_append, hpushed]
  simp [HashingEvent.pushed]

/-! ## Streams back -/

theorem decompressChunk_fits {s : DecompressState} {chunk : Bytes}
    (h : s.total + chunk.length ≤ pluginInputLimit limits) :
    decompressChunk limits s chunk = pure ⟨s.total + chunk.length, s.chunks ++ [chunk]⟩ := by
  have hin : ¬ (chunk.length : Int) > (pluginInputLimit limits : Int) - s.total := by omega
  simp only [decompressChunk, if_neg hin]

theorem decompressChunk_exceeds {s : DecompressState} {chunk : Bytes}
    (h : ¬ s.total + chunk.length ≤ pluginInputLimit limits) :
    decompressChunk limits s chunk = Emit.fail ⟨some "input"⟩ := by
  have hin : (chunk.length : Int) > (pluginInputLimit limits : Int) - s.total := by omega
  simp only [decompressChunk, if_pos hin, Emit.fail_bind]

/-- Chunks are kept, and nothing is pushed, until one of them does not fit. -/
theorem decompress_feed (s : DecompressState) (hs : s.total ≤ pluginInputLimit limits)
    (chunks : List Bytes) :
    (plugin.decompressor hmac limits).feed s chunks =
      if s.total + chunks.flatten.length ≤ pluginInputLimit limits then
        pure ⟨s.total + chunks.flatten.length, s.chunks ++ chunks⟩
      else
        Emit.fail ⟨some "input"⟩ := by
  induction chunks generalizing s with
  | nil =>
    rw [List.flatten_nil, List.append_nil, if_pos (by simpa using hs)]
    rfl
  | cons chunk chunks ih =>
    rw [Transform.feed_cons, List.flatten_cons, List.length_append, ← Nat.add_assoc]
    by_cases hin : s.total + chunk.length ≤ pluginInputLimit limits
    · -- the chunk is kept
      have hchunk : (plugin.decompressor hmac limits).transform s chunk = _ :=
        decompressChunk_fits limits hin
      rw [hchunk, Emit.pure_bind', ih ⟨s.total + chunk.length, s.chunks ++ [chunk]⟩ hin,
        List.append_assoc, List.singleton_append]
    · have hchunk : (plugin.decompressor hmac limits).transform s chunk = _ :=
        decompressChunk_exceeds limits hin
      rw [hchunk, Emit.fail_bind, if_neg (by omega)]

/-- The whole stream: the flush on all of the input, if it fits. -/
theorem decompress_run (chunks : List Bytes) :
    plugin.createStream hmac limits .decompress chunks =
      if chunks.flatten.length ≤ pluginInputLimit limits then
        plugin.decompressFlush hmac limits ⟨chunks.flatten.length, chunks⟩
      else
        Emit.fail ⟨some "input"⟩ := by
  have hfeed := decompress_feed plugin hmac limits DecompressState.start (Nat.zero_le _) chunks
  simp only [DecompressState.start, Nat.zero_add, List.nil_append] at hfeed
  simp only [createStream, Transform.complete, DecompressState.start, hfeed]
  split
  · rfl
  · rfl

theorem decompressFlush_of_sealed {chunks : List Bytes} {out : Bytes}
    (h : Sealed plugin hmac limits chunks.flatten out) :
    plugin.decompressFlush hmac limits ⟨chunks.flatten.length, chunks⟩ =
      ⟨[.compared (plugin.digest hmac out) (plugin.digest hmac out), .push out], .ok ()⟩ := by
  have hlength := h.length_eq
  obtain ⟨htake, hdrop⟩ := h.parts
  have hshort : ¬ chunks.flatten.length < plugin.len := by omega
  have hlimit : ¬ out.length > pluginOutputLimit limits := Nat.not_lt_of_le h.output_le
  simp only [decompressFlush, bufferConcat_eq_flatten rfl, if_neg hshort, htake, hdrop,
    if_neg hlimit, ne_eq, not_true_eq_false, if_false]
  rfl

/-- The runs of a flush: it stops before the comparison or at it, or the comparison
    succeeds and the data is pushed behind it. -/
theorem decompressFlush_cases (s : DecompressState) :
    (¬ (plugin.decompressFlush hmac limits s).Succeeds ∧
        ((plugin.decompressFlush hmac limits s).out = [] ∨
          ∃ attached expected,
            (plugin.decompressFlush hmac limits s).out = [.compared attached expected])) ∨
      ∃ out, bufferConcat s.chunks s.total = out ++ plugin.digest hmac out ∧
        out.length ≤ pluginOutputLimit limits ∧
        plugin.decompressFlush hmac limits s =
          ⟨[.compared (plugin.digest hmac out) (plugin.digest hmac out), .push out], .ok ()⟩ := by
  simp only [decompressFlush]
  split
  · exact .inl ⟨Emit.not_succeeds_fail _, .inl rfl⟩
  split
  · exact .inl ⟨Emit.not_succeeds_fail _, .inl rfl⟩
  -- behind the two checks stands the comparison
  rename_i hlimit
  split
  · refine .inl ⟨?_, .inr ⟨_, _, rfl⟩⟩
    rintro ⟨_, h⟩
    cases h
  -- it succeeds
  rename_i heq
  have heq := Classical.not_not.mp heq
  refine .inr ⟨_, ?_, Nat.le_of_not_lt hlimit, ?_⟩
  · rw [← heq, List.take_append_drop]
  · rw [heq]
    rfl

theorem delivered_decompress {chunks : List Bytes} {out : Bytes}
    (h : Sealed plugin hmac limits chunks.flatten out) :
    (plugin.createStream hmac limits .decompress chunks).Succeeds ∧
      delivered (plugin.createStream hmac limits .decompress chunks) = out := by
  rw [decompress_run, if_pos h.input_le, decompressFlush_of_sealed plugin hmac limits h]
  exact ⟨⟨(), rfl⟩, by simp [delivered, HashingEvent.pushed]⟩

theorem decompress_sealed {chunks : List Bytes}
    (h : (plugin.createStream hmac limits .decompress chunks).Succeeds) :
    ∃ out, Sealed plugin hmac limits chunks.flatten out := by
  rw [decompress_run] at h
  split at h
  · rename_i hin
    -- a flush that succeeds has compared equal digests
    rcases decompressFlush_cases plugin hmac limits ⟨chunks.flatten.length, chunks⟩ with
      ⟨hfails, -⟩ | ⟨out, hdigest, hlimit, -⟩
    · exact absurd h hfails
    · exact ⟨out, hin, hlimit, by rw [← hdigest, bufferConcat_eq_flatten rfl]⟩
  · exact absurd h (Emit.not_succeeds_fail _)

/-! ## Agreement -/

/-- A stream goes through where a buffer method returns, with the same bytes. -/
def Agrees (stream : Emit HashingEvent HashingError Unit)
    (buffer : Emit HashingEvent HashingError Bytes) : Prop :=
  (stream.Succeeds ↔ buffer.Succeeds) ∧ ∀ out, buffer.result = .ok out → delivered stream = out

theorem compress_agrees (chunks : List Bytes) :
    Agrees (plugin.createStream hmac limits .compress chunks)
      (plugin.process hmac limits chunks.flatten) := by
  by_cases h : plugin.Fits limits chunks.flatten.length
  · rw [process_of_fits plugin hmac limits h]
    refine ⟨⟨fun _ => ⟨_, rfl⟩, fun _ => ?_⟩, fun out hout => ?_⟩
    · rw [compress_fits plugin hmac limits h]
      exact ⟨(), rfl⟩
    · cases hout
      exact delivered_compress plugin hmac limits h
  · have hstream := compress_exceeds plugin hmac limits h
    have hbuffer := process_exceeds plugin hmac limits h
    exact ⟨iff_of_false hstream hbuffer, fun out hout => absurd ⟨out, hout⟩ hbuffer⟩

theorem decompress_agrees (chunks : List Bytes) :
    Agrees (plugin.createStream hmac limits .decompress chunks)
      (plugin.reverse hmac limits chunks.flatten) := by
  refine ⟨⟨fun h => ?_, ?_⟩, fun out hout => ?_⟩
  · obtain ⟨out, hsealed⟩ := decompress_sealed plugin hmac limits h
    exact ⟨out, (reverse_eq_ok plugin hmac limits).mpr hsealed⟩
  · -- a buffer that is taken is sealed
    rintro ⟨out, hout⟩
    exact (delivered_decompress plugin hmac limits (reverse_ok plugin hmac limits hout)).1
  · exact (delivered_decompress plugin hmac limits (reverse_ok plugin hmac limits hout)).2

/-- Every push of a `decompress` stream comes behind a comparison of equal digests. -/
theorem decompress_verified (chunks : List Bytes) {before after : List HashingEvent}
    {bytes : Bytes}
    (h : (plugin.createStream hmac limits .decompress chunks).out =
      before ++ .push bytes :: after) :
    ∃ digest, .compared digest digest ∈ before := by
  rw [decompress_run] at h
  split at h
  · rcases decompressFlush_cases plugin hmac limits ⟨chunks.flatten.length, chunks⟩ with
      ⟨-, hout | ⟨attached, expected, hout⟩⟩ | ⟨out, -, -, hrun⟩
    · rw [hout] at h
      simp at h
    · rw [hout] at h
      cases before with
      | nil => cases h
      | cons event before => simp at h
    · -- the push is the second event, behind the comparison
      rw [hrun] at h
      cases before with
      | nil => cases h
      | cons event before =>
        rw [List.cons_append, List.cons.injEq] at h
        exact ⟨_, List.mem_cons.mpr (.inl h.1)⟩
  · simp at h

/-- The HMAC streams do what the buffer methods do, for any cut of their input, and
    push nothing unverified; either direction undoes the other one, on either path. -/
theorem hashing_agreement (chunks : List Bytes) :
    Agrees (plugin.createStream hmac limits .compress chunks)
        (plugin.process hmac limits chunks.flatten) ∧
      Agrees (plugin.createStream hmac limits .decompress chunks)
        (plugin.reverse hmac limits chunks.flatten) ∧
      (∀ before bytes after, (plugin.createStream hmac limits .decompress chunks).out =
          before ++ .push bytes :: after →
        ∃ digest, .compared digest digest ∈ before) ∧
      ((plugin.process hmac limits chunks.flatten).Succeeds →
        (∀ out, (plugin.process hmac limits chunks.flatten).result = .ok out →
          (plugin.reverse hmac limits out).result = .ok chunks.flatten ∧
          ∀ pieces, pieces.flatten = out →
            (plugin.createStream hmac limits .decompress pieces).Succeeds ∧
              delivered (plugin.createStream hmac limits .decompress pieces) =
                chunks.flatten) ∧
        (plugin.reverse hmac limits
            (delivered (plugin.createStream hmac limits .compress chunks))).result =
          .ok chunks.flatten ∧
        ∀ pieces, pieces.flatten =
            delivered (plugin.createStream hmac limits .compress chunks) →
          (plugin.createStream hmac limits .decompress pieces).Succeeds ∧
            delivered (plugin.createStream hmac limits .decompress pieces) =
              chunks.flatten) := by
  refine ⟨compress_agrees plugin hmac limits chunks, decompress_agrees plugin hmac limits chunks,
    fun before bytes after => decompress_verified plugin hmac limits chunks, ?_⟩
  rintro ⟨out, hprocess⟩
  have hfits := ((process_eq_ok plugin hmac limits).mp hprocess).1
  have hsealed := sealed_of_fits plugin hmac limits hfits
  -- whatever way the data was hashed, this is what there is to verify
  have hback (pieces : List Bytes)
      (hpieces : pieces.flatten = chunks.flatten ++ plugin.digest hmac chunks.flatten) :
      (plugin.createStream hmac limits .decompress pieces).Succeeds ∧
        delivered (plugin.createStream hmac limits .decompress pieces) = chunks.flatten := by
    apply delivered_decompress plugin hmac limits
    rw [hpieces]
    exact hsealed
  have hreverse := (reverse_eq_ok plugin hmac limits).mpr hsealed
  rw [delivered_compress plugin hmac limits hfits]
  refine ⟨fun out hout => ?_, hreverse, hback⟩
  obtain ⟨-, rfl⟩ := (process_eq_ok plugin hmac limits).mp hout
  exact ⟨hreverse, hback⟩

/-- The digests of the bytes 1, 2 and 3 under the secret below. -/
def knownHmac : Hmac where
  digest := fun algorithm _ _ =>
    match algorithm with
    | .sha256 =>
      [123, 95, 131, 91, 84, 18, 27, 80, 158, 201, 135, 18, 182, 212, 187, 130,
        90, 53, 22, 53, 47, 252, 252, 225, 143, 57, 252, 30, 65, 9, 216, 254]
    | .sha512 =>
      [124, 111, 65, 137, 42, 185, 137, 87, 145, 125, 10, 22, 46, 233, 179, 248,
        60, 241, 146, 232, 54, 186, 199, 23, 145, 46, 92, 65, 183, 149, 13, 45,
        215, 181, 104, 116, 241, 253, 222, 243, 5, 100, 232, 203, 15, 50, 148, 54,
        206, 246, 79, 244, 99, 37, 206, 31, 9, 235, 217, 223, 10, 151, 245, 139]
  length_digest := fun algorithm _ _ => by cases algorithm <;> rfl

/-- Three bytes that are hashed and verified in one piece or two. -/
theorem hashing_agreement_known :
    (createStream ⟨.sha256, "0123456789abcdef", by decide⟩ knownHmac none .decompress
      [[1, 2], 3 :: digest ⟨.sha256, "0123456789abcdef", by decide⟩ knownHmac
        [1, 2, 3]]).Succeeds := by
  have hagreement :=
    hashing_agreement ⟨.sha256, "0123456789abcdef", by decide⟩ knownHmac none [[1], [2, 3]]
  -- three bytes are within the default limits
  have hsucc : (process ⟨.sha256, "0123456789abcdef", by decide⟩ knownHmac none
      [[1], [2, 3]].flatten).Succeeds := by
    rw [process_of_fits _ _ _ ⟨by decide, by decide⟩]
    exact ⟨_, rfl⟩
  obtain ⟨out, hout⟩ := hsucc
  obtain ⟨-, rfl⟩ := (process_eq_ok _ _ _).mp hout
  exact (((hagreement.2.2.2 ⟨_, hout⟩).1 _ hout).2 _ rfl).1

end PipeX.HashingPlugin
