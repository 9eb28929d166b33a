/-
  PipeX.Plugin.WireFields

  The numbers that the encoders of `src/plugin/` handle, as JavaScript has them: lengths
  and limits are doubles, frame sequences are `bigint`s.

  A `Wire` program notes every value that it writes into a field and every comparison of
  sizes that it makes.  It is built over `Shadowed` numbers, so that a comparison carries
  the answer of exact arithmetic beside its own.  `Refines` relates such a program to one
  over integers that notes nothing: all that was noted is in order, and both do the same.
-/
import PipeX.Lib.Shadow
import PipeX.Lib.Simulation
import PipeX.Plugin.EncryptionFormat.Format

namespace PipeX

open Chunked BigEndian Shadowed

/-! ## What is noted -/

/-- A value on its way into a field. -/
inductive FieldValue where
  | number (x : Float64)
  | bigint (n : ℤ)
deriving DecidableEq

/-- A non-negative integer of so many bytes. -/
def FieldValue.Fits (width : ℕ) : FieldValue → Prop
  | number x => ∃ n : ℕ, x = Float64.ofNat n ∧ n < 256 ^ width
  | bigint n => 0 ≤ n ∧ n < 256 ^ width

inductive WireEvent (ο : Type) where
  | field (width : ℕ) (value : FieldValue)
  | compare (c : Comparison)
  | output (o : ο)

namespace WireEvent

variable {ο ο' : Type}

/-- The outputs among the events. -/
def output? : WireEvent ο → Option ο
  | output o => some o
  | _ => none

/-- The other events, in a program with outputs of another type. -/
def noted? : WireEvent ο → Option (WireEvent ο')
  | field width value => some (field width value)
  | compare c => some (compare c)
  | output _ => none

/-- The same event, with outputs of another form. -/
def map (g : ο → ο') : WireEvent ο → WireEvent ο'
  | field width value => field width value
  | compare c => compare c
  | output o => output (g o)

/-- Fields hold what `fits`, and comparisons come out as in exact arithmetic. -/
def Sound (fits : ℕ → FieldValue → Prop) : WireEvent ο → Prop
  | field width value => fits width value
  | compare c => c.Holds ↔ c.Ideal
  | output _ => True

end WireEvent

/-- A program that notes fields and comparisons. -/
abbrev Wire (ο α : Type) : Type := Emit (WireEvent ο) JsError α

namespace Wire

variable {ο ο' α β α' β' : Type}

/-! ## Programs -/

def output (o : ο) : Wire ο Unit := Emit.push (.output o)

/-- `if (c) throw error`, and then the rest. -/
def check (c : Comparison) (error : JsError) (rest : ¬ c.Holds → Wire ο α) : Wire ο α := do
  Emit.push (.compare c)
  if h : c.Holds then
    Emit.fail error
  else
    rest h

def throwIf (c : Comparison) (error : JsError) : Wire ο Unit := check c error fun _ => pure ()

/-- `buf.writeUInt8`, `buf.writeUInt16BE` and `buf.writeUInt32BE`. -/
def writeUIntBE (width : ℕ) (value : Shadowed) : Wire ο Bytes := do
  Emit.push (.field width (.number value.double))
  if Float64.ofNat (256 ^ width - 1) < value.double ∨ value.double < 0 then
    Emit.fail rangeError
  return beBytes width value.double.truncate

/-- `buf.writeBigUInt64BE`. -/
def writeBigUInt64BE (value : ℕ) : Wire ο Bytes := do
  Emit.push (.field 8 (.bigint value))
  EncryptionFormat.writeUIntBE 8 value

/-- `Buffer.concat(list, totalLength)`; a length that is no safe integer is refused. -/
def bufferConcat (list : List Bytes) (totalLength : Shadowed) : Wire ο Bytes :=
  match totalLength.double.safeInteger? with
  | none => Emit.fail rangeError
  | some n => if n < 0 then Emit.fail rangeError else pure (PipeX.bufferConcat list n.toNat)

/-- A loop that pushes into an array, and the array that it leaves. -/
def collect (x : Wire ο Unit) : Wire ο' (List ο) :=
  ⟨x.out.filterMap WireEvent.noted?, x.result.map fun _ => x.out.filterMap WireEvent.output?⟩

/-! ## Refinement -/

/-- What is noted is in order, and for the rest the program does what `y` does. -/
abbrev Refines (fits : ℕ → FieldValue → Prop) (R : α → β → Prop) (x : Wire ο α)
    (y : Emit ο JsError β) : Prop :=
  Simulates (WireEvent.Sound fits) WireEvent.output? R x y

variable {fits : ℕ → FieldValue → Prop} {R : α → β → Prop}

theorem output_refines (o : ο) : Refines fits Eq (output o) (Emit.push o) :=
  .push trivial rfl

/-- Outputs of another form are those of the other program in that form. -/
theorem mapOut_refines (g : ο → ο') {x : Wire ο α} {y : Emit ο JsError β}
    (h : Refines fits R x y) : Refines fits R (x.mapOut (WireEvent.map g)) (y.mapOut g) := by
  refine h.mapOut (fun e he => ?_) fun e => ?_
  · cases e with
    | field width value => exact he
    | compare c => exact he
    | output o => trivial
  · cases e with
    | field width value => rfl
    | compare c => rfl
    | output o => rfl

/-- A check that decides as exact arithmetic does, and throws, -/
theorem check_fails {c : Comparison} {p : Prop} {error : JsError} {rest : ¬ c.Holds → Wire ο α}
    (hc : c.Decides p) (hp : p) :
    Refines fits R (check c error rest) (Emit.fail error : Emit ο JsError β) := by
  refine Simulates.bind_left (.note hc.agree rfl) fun _ _ => ?_
  rw [dif_pos (hc.holds.mpr hp)]
  exact .fail error

/-- or does not. -/
theorem check_passes {c : Comparison} {p : Prop} {error : JsError} {rest : ¬ c.Holds → Wire ο α}
    {y : Emit ο JsError β} (hc : c.Decides p) (hp : ¬ p)
    (hrest : ∀ h : ¬ c.Holds, Refines fits R (rest h) y) :
    Refines fits R (check c error rest) y := by
  refine Simulates.bind_left (.note hc.agree rfl) fun _ _ => ?_
  have hnot := mt hc.holds.mp hp
  rw [dif_neg hnot]
  exact hrest hnot

theorem throwIf_bind (c : Comparison) (error : JsError) (f : Unit → Wire ο α) :
    throwIf c error >>= f = check c error fun _ => f () := by
  rw [throwIf, check, check, bind_assoc]
  refine Emit.bind_congr' fun _ _ => ?_
  split
  · rfl
  · exact pure_bind _ _

/-- Such a check in front of the rest. -/
theorem throwIf_refines {c : Comparison} {p : Prop} [Decidable p] {error : JsError}
    {f : Unit → Wire ο α} {y : Emit ο JsError β} (hc : c.Decides p)
    (hrest : ¬ p → Refines fits R (f ()) y) :
    Refines fits R (throwIf c error >>= f) (if p then Emit.fail error else y) := by
  rw [throwIf_bind]
  by_cases hp : p
  · rw [if_pos hp]
    exact check_fails hc hp
  · rw [if_neg hp]
    exact check_passes hc hp fun _ => hrest hp

/-- The same, where the other program writes nothing. -/
theorem throwIf_refines_except {c : Comparison} {p : Prop} [Decidable p] {error : JsError}
    {f : Unit → Wire ο α} {y : Except JsError β} (hc : c.Decides p)
    (hrest : ¬ p → Refines fits R (f ()) (Emit.ofExcept y)) :
    Refines fits R (throwIf c error >>= f) (Emit.ofExcept (if p then .error error else y)) := by
  have h : Refines fits R (throwIf c error >>= f)
      (if p then Emit.fail error else Emit.ofExcept y) := throwIf_refines hc hrest
  by_cases hp : p
  · rw [if_pos hp] at h ⊢
    exact h
  · rw [if_neg hp] at h ⊢
    exact h

/-- A last check. -/
theorem throwIf_refines_last {c : Comparison} {p : Prop} [Decidable p] {error : JsError}
    (hc : c.Decides p) :
    Refines fits (fun _ _ => ¬ p) (throwIf c error : Wire ο Unit)
      (Emit.ofExcept (if p then .error error else pure ())) := by
  rw [← bind_pure (throwIf c error)]
  exact throwIf_refines_except hc fun hp => .pure hp

/-- The number goes into the field as it is. -/
theorem writeUIntBE_refines {width n : ℕ} {value : Shadowed} (hvalue : value.Tracks n)
    (hn : n < 256 ^ width) (hwidth : 256 ^ width ≤ 2 ^ 53)
    (hfits : fits width (.number (Float64.ofNat n))) :
    Refines fits Eq (writeUIntBE width value : Wire ο Bytes) (pure (beBytes width n)) := by
  have hdouble : value.double = Float64.ofNat n := hvalue.double_eq (by omega)
  have hhigh := (hvalue.gt (tracks_natCast (256 ^ width - 1)) (by omega)).holds
  have hlow := (hvalue.lt (tracks_ofNat 0) (by decide)).holds
  have hrange : ¬ (Float64.ofNat (256 ^ width - 1) < value.double ∨ value.double < 0) := by
    rintro (h | h)
    · have := hhigh.mp h
      omega
    · have := hlow.mp h
      omega
  rw [writeUIntBE, if_neg hrange, hdouble,
    Float64.truncate_ofNat (by exact (hn.le.trans hwidth))]
  exact Simulates.bind_left (.note hfits rfl) fun _ _ => .pure rfl

theorem writeBigUInt64BE_refines {n : ℕ} (hn : n < 256 ^ 8) (hfits : fits 8 (.bigint n)) :
    Refines fits Eq (writeBigUInt64BE n : Wire ο Bytes) (pure (beBytes 8 n)) := by
  rw [writeBigUInt64BE, EncryptionFormat.writeUIntBE_ok hn]
  exact Simulates.bind_left (.note hfits rfl) fun _ _ => .pure rfl

/-- A field of at most 32 bits that holds the integer of its size. -/
theorem writeUIntBE_fits {width n : ℕ} (hwidth : width ≤ 4) (hn : n < 256 ^ width) :
    Refines FieldValue.Fits Eq (writeUIntBE width n : Wire ο Bytes) (pure (beBytes width n)) := by
  have hpow : 256 ^ width ≤ 256 ^ 4 := Nat.pow_le_pow_right (by decide) hwidth
  exact writeUIntBE_refines (tracks_natCast n) hn (hpow.trans (by decide)) ⟨n, rfl, hn⟩

theorem writeBigUInt64BE_fits {n : ℕ} (hn : n < 256 ^ 8) :
    Refines FieldValue.Fits Eq (writeBigUInt64BE n : Wire ο Bytes) (pure (beBytes 8 n)) :=
  writeBigUInt64BE_refines hn ⟨n.cast_nonneg, by exact_mod_cast hn⟩

theorem bufferConcat_refines {list : List Bytes} {n : ℕ} {totalLength : Shadowed}
    (htotal : totalLength.Tracks n) (hn : n < 2 ^ 53) :
    Refines fits Eq (bufferConcat list totalLength : Wire ο Bytes)
      (pure (PipeX.bufferConcat list n)) := by
  have hsafe := htotal.safeInteger? (by omega)
  have hpos : ¬ (n : ℤ) < 0 := by omega
  simp only [bufferConcat, hsafe, if_neg hpos, Int.toNat_natCast]
  exact .pure rfl

/-- What a loop has pushed. -/
theorem collect_refines {x : Wire ο Unit} {y : Emit ο JsError Unit} (h : Refines fits Eq x y) :
    Refines fits (fun array _ => array = y.out) (collect x : Wire ο' (List ο))
      (Emit.ofExcept y.result) := by
  refine ⟨?_, ?_, ?_⟩
  · intro e he
    obtain ⟨e', he', hnoted⟩ := List.mem_filterMap.mp he
    have hsound := h.entries e' he'
    cases e' with
    | field width value =>
      cases hnoted
      exact hsound
    | compare c =>
      cases hnoted
      exact hsound
    | output o => cases hnoted
  · have hnone : ∀ e : WireEvent ο,
        (WireEvent.noted? e : Option (WireEvent ο')).bind WireEvent.output? = none := by
      intro e
      cases e <;> rfl
    simp only [collect, List.filterMap_filterMap, hnone, Emit.ofExcept_out]
    simp
  · show Related _ (x.result.map _) y.result
    rw [h.result.eq]
    cases y.result with
    | ok _ => exact .ok h.out
    | error e => exact .error e

end Wire
end PipeX
