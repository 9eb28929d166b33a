/-
  PipeX.Plugin.WireIntegers

  The encoders of `src/plugin/` under any limits that an engine accepts, and under any
  configuration that a constructor accepts.

  * Every value for a field is a non-negative integer that fits, and no record length of a
    worker stream is that of the end marker.
  * Every comparison of sizes comes out as in exact arithmetic.
  * So the encoders are those over integers, with the same outputs and the same errors.
-/
import PipeX.Plugin.Encryption
import PipeX.Plugin.EncryptionFormat.Numbers
import PipeX.Plugin.KmsEncryption.Numbers
import PipeX.Plugin.Worker.Numbers

namespace PipeX

open Chunked

/-! ## Runs in order -/

/-- What a run has noted is in order, and it does what the run in exact arithmetic does. -/
structure ExactRun {ο α : Type} (run : Wire ο α) (exact : Emit ο JsError α) : Prop where
  fields : ∀ width value, .field width value ∈ run.out → FieldValue.Fits width value
  comparisons : ∀ c, .compare c ∈ run.out → (c.Holds ↔ c.Ideal)
  outputs : run.out.filterMap WireEvent.output? = exact.out
  result : run.result = exact.result

theorem exactRun_of_refines {ο α : Type} {fits : ℕ → FieldValue → Prop} {run : Wire ο α}
    {exact : Emit ο JsError α} (h : Wire.Refines fits Eq run exact)
    (hfits : ∀ width value, fits width value → FieldValue.Fits width value) :
    ExactRun run exact where
  fields := fun width value hmem => hfits width value (h.entries _ hmem)
  comparisons := fun _ hmem => h.entries _ hmem
  outputs := h.out
  result := h.result.eq

/-! ## Record lengths -/

namespace WorkerPoolPlugin.Numbers

theorem RecordLength.fits {width : ℕ} {value : FieldValue} (h : RecordLength width value) :
    FieldValue.Fits width value := by
  obtain ⟨rfl, n, rfl, hn⟩ := h
  exact ⟨n, rfl, hn.trans (by decide)⟩

theorem RecordLength.ne_endMarker {width : ℕ} {value : FieldValue} (h : RecordLength width value) :
    value ≠ .number (Float64.ofNat 0xffffffff) := by
  obtain ⟨-, n, rfl, hn⟩ := h
  intro heq
  have hdouble := FieldValue.number.inj heq
  have hpow : n ≤ 2 ^ Float64.precision := hn.le.trans (by decide)
  rw [Float64.ofNat_eq hpow, Float64.ofNat_eq (by decide), Float64.finite.injEq, Nat.cast_inj]
    at hdouble
  omega

end WorkerPoolPlugin.Numbers

/-! ## The encoders -/

/-- The limits of a stream: `context?.limits ?? DEFAULT_LIMITS`. -/
def streamLimits (limits : Option AcceptedLimits) : AcceptedLimits :=
  limits.getD ⟨defaultLimits, defaultLimits_valid⟩

/-- The encoders under one configuration, over JavaScript's numbers and over integers. -/
structure WireIntegers (crypto : EncryptionFormat.Crypto) (cipher : KmsEncryption.KmsCipher)
    (salt : EncryptionFormat.Salt) (iv : KmsEncryption.Iv) (limits : Option AcceptedLimits)
    (encryption : EncryptionPlugin) (kms : KmsEncryption.KmsEncryptionPlugin)
    (pool : WorkerPoolPlugin) (data : Bytes) (chunks : List Bytes) : Prop where
  packet : ExactRun
    (EncryptionFormat.Numbers.encryptBuffer crypto salt data encryption.options
      (limits.map Subtype.val))
    (Emit.ofExcept (encryption.process crypto salt data (limits.map Subtype.val)) :
      Emit Bytes JsError Bytes)
  packets : ExactRun
    (EncryptionFormat.Numbers.encryptStream crypto salt encryption.options
      (limits.map Subtype.val) chunks)
    (encryption.createStream crypto salt .compress (limits.map Subtype.val) chunks)
  envelope : ExactRun
    (KmsEncryption.Numbers.process cipher kms iv data (limits.map Subtype.val))
    (Emit.ofExcept (KmsEncryption.process cipher kms iv data (limits.map Subtype.val)) :
      Emit Bytes JsError Bytes)
  records : ExactRun
    (WorkerPoolPlugin.Numbers.createStream pool (streamLimits limits) chunks)
    (pool.createStream (streamLimits limits) .compress chunks)
  noEndMarker : ∀ width value,
    .field width value ∈
      (WorkerPoolPlugin.Numbers.createStream pool (streamLimits limits) chunks).out →
    value ≠ .number (Float64.ofNat 0xffffffff)

theorem wire_integers_exact (crypto : EncryptionFormat.Crypto) (cipher : KmsEncryption.KmsCipher)
    (salt : EncryptionFormat.Salt) (iv : KmsEncryption.Iv) (limits : Option AcceptedLimits)
    (encryption : EncryptionPlugin) (kms : KmsEncryption.KmsEncryptionPlugin)
    (pool : WorkerPoolPlugin) (data : Bytes) (chunks : List Bytes) :
    WireIntegers crypto cipher salt iv limits encryption kms pool data chunks := by
  have hformat := EncryptionFormat.Numbers.limitsFor_safe limits
  have hkms := KmsEncryption.Numbers.safeLimits limits
  have hpool := WorkerPoolPlugin.Numbers.createStream_refines pool (streamLimits limits) chunks
  refine ⟨?_, ?_, ?_, ?_, ?_⟩
  · exact exactRun_of_refines (EncryptionFormat.Numbers.encryptBuffer_refines crypto salt data
      encryption.options hformat) fun _ _ h => h
  · exact exactRun_of_refines (EncryptionFormat.Numbers.encryptStream_refines crypto salt
      encryption.options hformat chunks) fun _ _ h => h
  · exact exactRun_of_refines (KmsEncryption.Numbers.process_refines cipher kms iv data hkms)
      fun _ _ h => h
  · exact exactRun_of_refines hpool fun _ _ h => h.fits
  · exact fun width value hmem =>
      WorkerPoolPlugin.Numbers.RecordLength.ne_endMarker (hpool.entries _ hmem)

end PipeX
