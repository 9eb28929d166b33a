/-
  PipeX.Core.FrameLimits.ScanView

  The scanner against the automaton of the profile.

  `view` is the state of the automaton that a scanner stands for.  A byte takes
  the scanner to the next state or is refused, and it is refused only where no
  value goes on with it or none that fits the limits does (`advance_reaches`).
-/
import PipeX.Core.FrameLimits.Residual
import PipeX.Core.FrameLimits.ScanBytes

namespace PipeX.FrameLimits

open Chunked

def LengthKind.field : LengthKind → Field
  | .array => .children 1
  | .map => .children 2
  | .payload => .payload
  | .extension => .extension

namespace MessagePackFrameScanner

/-! ## The state a scanner stands for -/

/-- A pending payload or length field is looked at before the values to come. -/
def view (s : MessagePackFrameScanner) : Residual :=
  if s.payloadBytes > 0 then
    if s.extensionTypePending then .extensionType (s.payloadBytes - 1) s.remainingValues
    else .payload s.payloadBytes s.remainingValues
  else
    match s.pending with
    | some p => .length (p.bytes - p.read) p.value p.kind.field s.remainingValues
    | none => .values s.remainingValues

/-- What the fields of a scanner always are to one another. -/
structure Shaped (s : MessagePackFrameScanner) : Prop where
  pending : ∀ p, s.pending = some p → s.payloadBytes = 0 ∧ p.read < p.bytes
  extension : s.extensionTypePending = true → 0 < s.payloadBytes

/-- Nothing is pending: the next byte opens a value. -/
structure Clear (s : MessagePackFrameScanner) : Prop where
  payload : s.payloadBytes = 0
  extension : s.extensionTypePending = false
  pending : s.pending = none

theorem Clear.shaped {s : MessagePackFrameScanner} (h : s.Clear) : s.Shaped where
  pending p hp := by
    rw [h.pending] at hp
    cases hp
  extension hext := by
    rw [h.extension] at hext
    cases hext

theorem Clear.view {s : MessagePackFrameScanner} (h : s.Clear) :
    s.view = .values s.remainingValues := by
  simp only [MessagePackFrameScanner.view, h.payload, h.pending, gt_iff_lt, Nat.lt_irrefl, if_false]

theorem view_proper {s : MessagePackFrameScanner} (h : s.Shaped) : s.view.Proper := by
  simp only [view]
  split
  · rename_i hpayload
    split
    · trivial
    · exact hpayload
  · split
    · rename_i p hp
      have := (h.pending p hp).2
      change 0 < p.bytes - p.read
      omega
    · trivial

/-- A frame is complete when no value is to come. -/
theorem view_eq_values_zero_iff (s : MessagePackFrameScanner) :
    s.view = .values 0 ↔ ¬ (s.pending.isSome ∨ s.payloadBytes > 0 ∨ s.remainingValues ≠ 0) := by
  simp only [view]
  by_cases hpayload : s.payloadBytes > 0
  · cases hext : s.extensionTypePending <;> simp [hpayload]
  · cases hpending : s.pending with
    | some p => simp [hpayload]
    | none => simp [Nat.le_zero.mp (Nat.not_lt.mp hpayload)]

/-- Between two values nothing is pending. -/
theorem view_eq_values {s : MessagePackFrameScanner} {m : Nat} (h : s.view = .values m) :
    s.payloadBytes = 0 ∧ s.pending = none := by
  simp only [view] at h
  split at h
  · split at h <;> cases h
  · split at h
    · cases h
    · exact ⟨Nat.eq_zero_of_not_pos ‹_›, ‹_›⟩

/-! ## Reaching a state within the limits -/

variable (maxFrameBytes : Nat)

/-- The scanner that comes out stands for `target`; and if none comes out, then no
    value within the limits goes on from `target`. -/
inductive Reaches (frameBytes frames : Nat) (target : Option Residual) :
    Except JsError MessagePackFrameScanner → Prop where
  | ok {s : MessagePackFrameScanner} (shaped : s.Shaped) (view : target = some s.view)
      (bytes : s.frameBytes = frameBytes) (count : s.frames = frames) :
      Reaches frameBytes frames target (.ok s)
  | error {e : JsError} (refuses : ∀ r, target = some r →
      maxFrameBytes < frameBytes + r.minimum ∨ maxSafeInteger < r.minimum) :
      Reaches frameBytes frames target (.error e)

theorem ensureMinimumRemaining_ok {s : MessagePackFrameScanner} {n : Nat}
    (h : s.frameBytes + n + s.remainingValues ≤ maxFrameBytes) :
    s.ensureMinimumRemaining maxFrameBytes n = .ok () :=
  if_neg (by omega)

theorem ensureMinimumRemaining_error {s : MessagePackFrameScanner} {n : Nat}
    (h : maxFrameBytes < s.frameBytes + n + s.remainingValues) :
    s.ensureMinimumRemaining maxFrameBytes n = frameTooLarge maxFrameBytes :=
  if_pos (by omega)

theorem isSafeInteger_natCast (n : Nat) :
    (JsNumber.integer n).isSafeInteger = decide (n ≤ maxSafeInteger) := by
  simp only [JsNumber.isSafeInteger, decide_eq_decide]
  omega

theorem addChildren_ok {s : MessagePackFrameScanner} {n : Nat}
    (hsafe : n + s.remainingValues ≤ maxSafeInteger)
    (h : s.frameBytes + (n + s.remainingValues) ≤ maxFrameBytes) :
    s.addChildren maxFrameBytes n = .ok { s with remainingValues := s.remainingValues + n } := by
  have hsafe' : ¬ ((JsNumber.integer n).isSafeInteger = false ∨ (n : Int) < 0 ∨
      (n : Int) > (maxSafeInteger : Int) - s.remainingValues) := by
    rw [isSafeInteger_natCast, decide_eq_false_iff_not]
    omega
  have hmin : ensureMinimumRemaining maxFrameBytes
      { s with remainingValues := s.remainingValues + n } 0 = .ok () :=
    if_neg (by dsimp only; omega)
  simp only [addChildren, if_neg hsafe', hmin]
  rfl

theorem addChildren_error {s : MessagePackFrameScanner} {n : Nat}
    (h : maxFrameBytes < s.frameBytes + (n + s.remainingValues) ∨
      maxSafeInteger < n + s.remainingValues) :
    ∃ e, s.addChildren maxFrameBytes n = .error e := by
  rw [addChildren]
  split
  · exact ⟨_, rfl⟩
  · rename_i hsafe
    rw [isSafeInteger_natCast, decide_eq_false_iff_not] at hsafe
    have hmin : ensureMinimumRemaining maxFrameBytes
        { s with remainingValues := s.remainingValues + n } 0 = frameTooLarge maxFrameBytes :=
      if_pos (by dsimp only; omega)
    simp only [hmin]
    exact ⟨_, rfl⟩

theorem addChildren_reaches {s : MessagePackFrameScanner} (hs : s.Clear) (n : Nat) :
    Reaches maxFrameBytes s.frameBytes s.frames (some (.values (n + s.remainingValues)))
      (s.addChildren maxFrameBytes n) := by
  by_cases h : s.frameBytes + (n + s.remainingValues) ≤ maxFrameBytes ∧
      n + s.remainingValues ≤ maxSafeInteger
  · have hclear : Clear { s with remainingValues := s.remainingValues + n } :=
      ⟨hs.payload, hs.extension, hs.pending⟩
    rw [addChildren_ok _ h.2 h.1]
    exact .ok hclear.shaped (by rw [hclear.view, Nat.add_comm]) rfl rfl
  · have h' : maxFrameBytes < s.frameBytes + (n + s.remainingValues) ∨
        maxSafeInteger < n + s.remainingValues := by
      omega
    obtain ⟨e, he⟩ := addChildren_error maxFrameBytes h'
    rw [he]
    refine .error fun r hr => ?_
    cases hr
    exact h'

theorem setPayload_ok {s : MessagePackFrameScanner} {n : Nat} (hsafe : n ≤ maxSafeInteger)
    (h : s.frameBytes + (n + s.remainingValues) ≤ maxFrameBytes) :
    s.setPayload maxFrameBytes n = .ok { s with payloadBytes := n } := by
  have hsafe' : ¬ ((JsNumber.integer n).isSafeInteger = false ∨ (n : Int) < 0) := by
    rw [isSafeInteger_natCast, decide_eq_false_iff_not]
    omega
  rw [setPayload, if_neg hsafe', ensureMinimumRemaining_ok _ (by omega)]
  rfl

theorem setPayload_error {s : MessagePackFrameScanner} {n : Nat}
    (h : maxFrameBytes < s.frameBytes + (n + s.remainingValues) ∨ maxSafeInteger < n) :
    ∃ e, s.setPayload maxFrameBytes n = .error e := by
  rw [setPayload]
  split
  · exact ⟨_, rfl⟩
  · rename_i hsafe
    rw [isSafeInteger_natCast, decide_eq_false_iff_not] at hsafe
    rw [ensureMinimumRemaining_error _ (by omega)]
    exact ⟨_, rfl⟩

theorem afterPayload_minimum (left m : Nat) : (Residual.afterPayload left m).minimum = left + m := by
  rw [Residual.afterPayload]
  split
  · rename_i h
    rw [h, Nat.zero_add]
    rfl
  · rfl

/-- A scanner with a payload set. -/
theorem view_payload {s : MessagePackFrameScanner} (hpending : s.pending = none)
    (hext : s.extensionTypePending = false) :
    s.Shaped ∧ s.view = .afterPayload s.payloadBytes s.remainingValues := by
  refine ⟨⟨fun p hp => ?_, fun h => ?_⟩, ?_⟩
  · rw [hpending] at hp
    cases hp
  · rw [hext] at h
    cases h
  · simp only [view, hext, hpending, Residual.afterPayload, Bool.false_eq_true, if_false]
    by_cases hzero : s.payloadBytes = 0
    · rw [if_pos hzero, if_neg (by omega)]
    · rw [if_neg hzero, if_pos (by omega)]

theorem setPayload_reaches {s : MessagePackFrameScanner} (hs : s.Clear) (n : Nat) :
    Reaches maxFrameBytes s.frameBytes s.frames (some (.afterPayload n s.remainingValues))
      (s.setPayload maxFrameBytes n) := by
  by_cases h : s.frameBytes + (n + s.remainingValues) ≤ maxFrameBytes ∧ n ≤ maxSafeInteger
  · rw [setPayload_ok _ h.2 h.1]
    obtain ⟨hshaped, hview⟩ := @view_payload { s with payloadBytes := n } hs.pending hs.extension
    exact .ok hshaped (by rw [hview]) rfl rfl
  · have h' : maxFrameBytes < s.frameBytes + (n + s.remainingValues) ∨ maxSafeInteger < n := by
      omega
    obtain ⟨e, he⟩ := setPayload_error maxFrameBytes h'
    rw [he]
    refine .error fun r hr => ?_
    cases hr
    rw [afterPayload_minimum]
    omega

theorem setExtensionPayload_reaches {s : MessagePackFrameScanner} (hs : s.Clear) (n : Nat) :
    Reaches maxFrameBytes s.frameBytes s.frames (some (.extensionType n s.remainingValues))
      (s.setExtensionPayload maxFrameBytes n) := by
  rw [setExtensionPayload]
  by_cases h : s.frameBytes + (n + 1 + s.remainingValues) ≤ maxFrameBytes ∧
      n + 1 ≤ maxSafeInteger
  · rw [setPayload_ok _ h.2 h.1]
    refine .ok ⟨fun p hp => ?_, fun _ => Nat.succ_pos n⟩ ?_ rfl rfl
    · have hp : s.pending = some p := hp
      rw [hs.pending] at hp
      cases hp
    · simp only [view, gt_iff_lt, Nat.succ_pos, if_true, Nat.add_sub_cancel]
  · -- the payload and the type byte do not fit
    have h' : maxFrameBytes < s.frameBytes + (n + 1 + s.remainingValues) ∨
        maxSafeInteger < n + 1 := by
      omega
    obtain ⟨e, he⟩ := setPayload_error maxFrameBytes h'
    rw [he]
    refine .error fun r hr => ?_
    cases hr
    simp only [Residual.minimum]
    omega

theorem readLength_reaches {s : MessagePackFrameScanner} (hs : s.Clear) (kind : LengthKind)
    {bytes : Nat} (hbytes : 0 < bytes) :
    Reaches maxFrameBytes s.frameBytes s.frames
      (some (.length bytes 0 kind.field s.remainingValues)) (.ok (s.readLength kind bytes)) := by
  refine .ok ⟨fun p hp => ?_, fun h => ?_⟩ ?_ rfl rfl
  · cases hp
    exact ⟨hs.payload, hbytes⟩
  · have h : s.extensionTypePending = true := h
    rw [hs.extension] at h
    cases h
  · simp only [view, readLength, hs.payload, gt_iff_lt, Nat.lt_irrefl, if_false, Nat.sub_zero]

/-- Turning the pending flag off where it is off. -/
theorem setPayload_clear {s : MessagePackFrameScanner} (hs : s.Clear) (n : Nat) :
    (s.setPayload maxFrameBytes n >>= fun s => pure { s with extensionTypePending := false }) =
      s.setPayload maxFrameBytes n := by
  by_cases h : s.frameBytes + (n + s.remainingValues) ≤ maxFrameBytes ∧ n ≤ maxSafeInteger
  · rw [setPayload_ok _ h.2 h.1, ← hs.extension]
    rfl
  · obtain ⟨e, he⟩ := setPayload_error (s := s) (n := n) maxFrameBytes (by omega)
    rw [he]
    rfl

theorem applyLength_reaches {s : MessagePackFrameScanner} (hs : s.Clear) (kind : LengthKind)
    (value : Nat) :
    Reaches maxFrameBytes s.frameBytes s.frames
      (some (.ofContent s.remainingValues (kind.field.content value)))
      (s.applyLength maxFrameBytes kind value) := by
  cases kind with
  | array =>
    simp only [LengthKind.field, Field.content, Nat.one_mul]
    exact addChildren_reaches maxFrameBytes hs value
  | map =>
    -- a map has two children to an entry
    simp only [LengthKind.field, Field.content, Nat.mul_comm 2]
    exact addChildren_reaches maxFrameBytes hs (value * 2)
  | payload =>
    simp only [applyLength]
    rw [setPayload_clear maxFrameBytes hs]
    exact setPayload_reaches maxFrameBytes hs value
  | extension =>
    have heq : s.applyLength maxFrameBytes .extension value =
        s.setExtensionPayload maxFrameBytes value := by
      simp only [applyLength, setExtensionPayload]
    rw [heq]
    exact setExtensionPayload_reaches maxFrameBytes hs value

/-! ## The first byte of a value -/

/-- The low bits that the source masks out of a short head. -/
theorem token_mask (b : UInt8) :
    (0x80 ≤ b.toNat ∧ b.toNat ≤ 0x8f → (b &&& 0x0f).toNat = b.toNat - 0x80) ∧
    (0x90 ≤ b.toNat ∧ b.toNat ≤ 0x9f → (b &&& 0x0f).toNat = b.toNat - 0x90) ∧
    (0xa0 ≤ b.toNat ∧ b.toNat ≤ 0xbf → (b &&& 0x1f).toNat = b.toNat - 0xa0) :=
  forall_byte (fun b =>
    (0x80 ≤ b.toNat ∧ b.toNat ≤ 0x8f → (b &&& 0x0f).toNat = b.toNat - 0x80) ∧
    (0x90 ≤ b.toNat ∧ b.toNat ≤ 0x9f → (b &&& 0x0f).toNat = b.toNat - 0x90) ∧
    (0xa0 ≤ b.toNat ∧ b.toNat ≤ 0xbf → (b &&& 0x1f).toNat = b.toNat - 0xa0))
    (by decide +kernel) b

/-- A byte that stands for itself changes nothing. -/
theorem scalar_reaches {s : MessagePackFrameScanner} (hs : s.Clear) :
    Reaches maxFrameBytes s.frameBytes s.frames (some (.values s.remainingValues)) (.ok s) :=
  .ok hs.shaped (by rw [hs.view]) rfl rfl

/-- The tokens from 0xc0 to 0xdf. -/
theorem token_long {b : UInt8} (h : 0xc0 ≤ b.toNat ∧ b.toNat ≤ 0xdf) :
    b ∈ ([0xc0, 0xc1, 0xc2, 0xc3, 0xc4, 0xc5, 0xc6, 0xc7, 0xc8, 0xc9, 0xca, 0xcb, 0xcc, 0xcd, 0xce,
      0xcf, 0xd0, 0xd1, 0xd2, 0xd3, 0xd4, 0xd5, 0xd6, 0xd7, 0xd8, 0xd9, 0xda, 0xdb, 0xdc, 0xdd, 0xde,
      0xdf] : List UInt8) :=
  forall_byte (fun b => 0xc0 ≤ b.toNat ∧ b.toNat ≤ 0xdf →
    b ∈ ([0xc0, 0xc1, 0xc2, 0xc3, 0xc4, 0xc5, 0xc6, 0xc7, 0xc8, 0xc9, 0xca, 0xcb, 0xcc, 0xcd, 0xce,
      0xcf, 0xd0, 0xd1, 0xd2, 0xd3, 0xd4, 0xd5, 0xd6, 0xd7, 0xd8, 0xd9, 0xda, 0xdb, 0xdc, 0xdd, 0xde,
      0xdf] : List UInt8)) (by decide +kernel) b h

theorem readToken_long_reaches {s : MessagePackFrameScanner} (hs : s.Clear) {b : UInt8}
    (hb : 0xc0 ≤ b.toNat ∧ b.toNat ≤ 0xdf) :
    Reaches maxFrameBytes s.frameBytes s.frames
      ((opening b).map (Residual.ofOpening s.remainingValues)) (s.readToken maxFrameBytes b) := by
  have hscalar := scalar_reaches maxFrameBytes hs
  have hpayload := setPayload_reaches maxFrameBytes hs
  have hextension := setExtensionPayload_reaches maxFrameBytes hs
  have hlength := fun kind bytes => @readLength_reaches maxFrameBytes s hs kind bytes
  have htoken := token_long hb
  simp only [List.mem_cons, List.not_mem_nil, or_false] at htoken
  -- the 32 tokens from 0xc0 on, one by one
  rcases htoken with rfl | rfl | rfl | rfl | rfl | rfl | rfl | rfl | rfl | rfl | rfl | rfl | rfl |
    rfl | rfl | rfl | rfl | rfl | rfl | rfl | rfl | rfl | rfl | rfl | rfl | rfl | rfl | rfl | rfl |
    rfl | rfl | rfl
  · exact hscalar
  · -- 0xc1 is never used
    exact .error fun r hr => by cases hr
  · exact hscalar
  · exact hscalar
  · exact hlength .payload 1 (by omega)
  · exact hlength .payload 2 (by omega)
  · exact hlength .payload 4 (by omega)
  · exact hlength .extension 1 (by omega)
  · exact hlength .extension 2 (by omega)
  · exact hlength .extension 4 (by omega)
  · exact hpayload 4
  · exact hpayload 8
  · exact hpayload 1
  · exact hpayload 2
  · exact hpayload 4
  · exact hpayload 8
  · exact hpayload 1
  · exact hpayload 2
  · exact hpayload 4
  · exact hpayload 8
  · exact hextension 1
  · exact hextension 2
  · exact hextension 4
  · exact hextension 8
  · exact hextension 16
  · exact hlength .payload 1 (by omega)
  · exact hlength .payload 2 (by omega)
  · exact hlength .payload 4 (by omega)
  · exact hlength .array 2 (by omega)
  · exact hlength .array 4 (by omega)
  · exact hlength .map 2 (by omega)
  · exact hlength .map 4 (by omega)

theorem readToken_reaches {s : MessagePackFrameScanner} (hs : s.Clear) (b : UInt8) :
    Reaches maxFrameBytes s.frameBytes s.frames
      ((opening b).map (Residual.ofOpening s.remainingValues)) (s.readToken maxFrameBytes b) := by
  by_cases hlong : 0xc0 ≤ b.toNat ∧ b.toNat ≤ 0xdf
  · exact readToken_long_reaches maxFrameBytes hs hlong
  -- the other tokens hold a number in their low bits
  obtain ⟨hmap, harray, hstr⟩ := token_mask b
  simp only [readToken, opening]
  -- a small number, of either sign
  by_cases hsmall : b.toNat ≤ 0x7f ∨ 0xe0 ≤ b.toNat
  · rw [if_pos hsmall, if_pos (by omega), if_neg (by omega)]
    exact scalar_reaches maxFrameBytes hs
  have hother : ¬ (b.toNat ≤ 0x7f ∨ b.toNat ≥ 0xe0 ∨ (b.toNat ≥ 0xc0 ∧ b.toNat ≤ 0xc3)) := by omega
  rw [if_neg hsmall, if_neg hother]
  by_cases hmap' : b.toNat ≤ 0x8f
  · rw [if_pos hmap', if_pos (by omega), hmap (by omega), Nat.mul_comm]
    exact addChildren_reaches maxFrameBytes hs _
  rw [if_neg hmap', if_neg (show ¬ (b.toNat ≥ 0x80 ∧ b.toNat ≤ 0x8f) by omega)]
  by_cases harray' : b.toNat ≤ 0x9f
  · rw [if_pos harray', if_pos (by omega), harray (by omega)]
    exact addChildren_reaches maxFrameBytes hs _
  rw [if_neg harray', if_neg (show ¬ (b.toNat ≥ 0x90 ∧ b.toNat ≤ 0x9f) by omega),
    if_pos (by omega), if_pos (by omega), hstr (by omega), Option.map_some, Residual.ofOpening,
    Residual.ofContent]
  exact setPayload_reaches maxFrameBytes hs (b.toNat - 0xa0)

/-! ## Any byte -/

theorem advance_full {s : MessagePackFrameScanner} (h : maxFrameBytes < s.frameBytes + 1)
    (b : UInt8) : ∃ e, s.advance maxFrameBytes b = .error e := by
  have hfull := consumeBytes_error maxFrameBytes h
  simp only [advance, extensionTypeByte, payloadByte, lengthByte, tokenByte, hfull]
  split
  · split
    · exact ⟨_, rfl⟩
    · exact ⟨_, rfl⟩
  · split
    · exact ⟨_, rfl⟩
    · exact ⟨_, rfl⟩

/-- A scanner that goes on is within the frame limit. -/
theorem advance_le {s s' : MessagePackFrameScanner} {b : UInt8}
    (h : s.advance maxFrameBytes b = .ok s') : s.frameBytes + 1 ≤ maxFrameBytes := by
  by_cases hle : s.frameBytes + 1 ≤ maxFrameBytes
  · exact hle
  · obtain ⟨e, he⟩ := advance_full maxFrameBytes (Nat.lt_of_not_le hle) b
    rw [he] at h
    cases h

theorem Shaped.pending_none {s : MessagePackFrameScanner} (hs : s.Shaped)
    (hpayload : s.payloadBytes > 0) : s.pending = none := by
  cases hpending : s.pending with
  | none => rfl
  | some p =>
    have := (hs.pending p hpending).1
    omega

theorem extensionType_contextual (b : UInt8) :
    (b = 0x65 ∨ b = 0x73 ∨ b = 0x78) ↔ takesValue b = true := by
  simp [takesValue]

theorem extensionType_unknown (b : UInt8) :
    (b ≠ 0x00 ∧ b ≠ 0x42 ∧ b ≠ 0x74 ∧ b ≠ 0xff) ↔ standsAlone b = false := by
  simp [standsAlone]

/-- One more value behind the payload of an extension. -/
theorem addChild_reaches {s : MessagePackFrameScanner} (hpending : s.pending = none)
    (hext : s.extensionTypePending = false) :
    Reaches maxFrameBytes s.frameBytes s.frames
      (some (.afterPayload s.payloadBytes (s.remainingValues + 1)))
      (s.addChildren maxFrameBytes 1 >>= fun s =>
        s.ensureMinimumRemaining maxFrameBytes s.payloadBytes >>= fun _ => pure s) := by
  by_cases hchild : maxFrameBytes < s.frameBytes + (1 + s.remainingValues) ∨
      maxSafeInteger < 1 + s.remainingValues
  · obtain ⟨e, he⟩ := addChildren_error maxFrameBytes hchild
    rw [he]
    refine .error fun r hr => ?_
    cases hr
    rw [afterPayload_minimum]
    omega
  · rw [addChildren_ok maxFrameBytes (by omega) (by omega)]
    -- the child is counted; then its first byte has to fit too
    by_cases hfits : s.frameBytes + s.payloadBytes + (s.remainingValues + 1) ≤ maxFrameBytes
    · have hmin : ensureMinimumRemaining maxFrameBytes
          { s with remainingValues := s.remainingValues + 1 } s.payloadBytes = .ok () :=
        ensureMinimumRemaining_ok maxFrameBytes hfits
      obtain ⟨hshaped, hview⟩ :=
        @view_payload { s with remainingValues := s.remainingValues + 1 } hpending hext
      simp only [bind, Except.bind, hmin]
      exact .ok hshaped (by rw [hview]) rfl rfl
    · have hmin : ensureMinimumRemaining maxFrameBytes
          { s with remainingValues := s.remainingValues + 1 } s.payloadBytes =
            frameTooLarge maxFrameBytes :=
        ensureMinimumRemaining_error maxFrameBytes (Nat.lt_of_not_le hfits)
      simp only [bind, Except.bind, hmin, frameTooLarge]
      refine .error fun r hr => ?_
      cases hr
      rw [afterPayload_minimum]
      omega

theorem extensionTypeByte_reaches {s : MessagePackFrameScanner} (hs : s.Shaped)
    (hpayload : s.payloadBytes > 0) (hle : s.frameBytes + 1 ≤ maxFrameBytes) (b : UInt8) :
    Reaches maxFrameBytes (s.frameBytes + 1) s.frames
      ((Residual.extensionType (s.payloadBytes - 1) s.remainingValues).step b)
      (s.extensionTypeByte maxFrameBytes b) := by
  have hpending := hs.pending_none hpayload
  rw [extensionTypeByte, consumeBytes_ok maxFrameBytes hle]
  simp only [extensionType_contextual, extensionType_unknown, Residual.step, bind, Except.bind]
  -- the type of a registered extension says whether a value follows
  by_cases htakes : takesValue b = true
  · rw [if_pos htakes, if_pos htakes]
    exact @addChild_reaches maxFrameBytes
      { s with
        frameBytes := s.frameBytes + 1
        payloadBytes := s.payloadBytes - 1
        extensionTypePending := false } hpending rfl
  · rw [if_neg htakes, if_neg htakes]
    by_cases halone : standsAlone b = true
    · rw [if_pos halone, if_neg (by simp [halone])]
      obtain ⟨hshaped, hview⟩ := @view_payload
        { s with
          frameBytes := s.frameBytes + 1
          payloadBytes := s.payloadBytes - 1
          extensionTypePending := false } hpending rfl
      exact .ok hshaped (by rw [hview]) rfl rfl
    · rw [if_neg halone, if_pos (by simpa using halone)]
      exact .error fun r hr => by cases hr

theorem payloadByte_reaches {s : MessagePackFrameScanner} (hs : s.Shaped)
    (hpayload : s.payloadBytes > 0) (hext : s.extensionTypePending = false)
    (hle : s.frameBytes + 1 ≤ maxFrameBytes) (b : UInt8) :
    Reaches maxFrameBytes (s.frameBytes + 1) s.frames
      ((Residual.payload s.payloadBytes s.remainingValues).step b)
      (s.payloadByte maxFrameBytes) := by
  have hpending := hs.pending_none hpayload
  rw [payloadByte, consumeBytes_ok maxFrameBytes hle]
  simp only [Residual.step, bind, Except.bind]
  -- more of the payload is to come, and there is no room for it
  by_cases hfull : s.payloadBytes - 1 > 0 ∧ s.frameBytes + 1 = maxFrameBytes
  · rw [if_pos hfull]
    refine .error fun r hr => ?_
    cases hr
    rw [afterPayload_minimum]
    omega
  · rw [if_neg hfull]
    obtain ⟨hshaped, hview⟩ := @view_payload
      { s with frameBytes := s.frameBytes + 1, payloadBytes := s.payloadBytes - 1 } hpending hext
    exact .ok hshaped (by rw [hview]) rfl rfl

theorem lengthByte_reaches {s : MessagePackFrameScanner} (hs : s.Shaped) {p : PendingLength}
    (hpending : s.pending = some p) (hle : s.frameBytes + 1 ≤ maxFrameBytes) (b : UInt8) :
    Reaches maxFrameBytes (s.frameBytes + 1) s.frames
      ((Residual.length (p.bytes - p.read) p.value p.kind.field s.remainingValues).step b)
      (s.lengthByte maxFrameBytes p b) := by
  obtain ⟨hpayload, hread⟩ := hs.pending p hpending
  have hext : s.extensionTypePending = false := by
    by_contra h
    have := hs.extension (by simpa using h)
    omega
  rw [lengthByte, consumeBytes_ok maxFrameBytes hle]
  simp only [Residual.step, bind, Except.bind]
  -- the last byte of the length field, or an earlier one
  by_cases hlast : p.read + 1 = p.bytes
  · rw [if_pos hlast, if_pos (by omega)]
    exact @applyLength_reaches maxFrameBytes
      { s with frameBytes := s.frameBytes + 1, pending := none } ⟨hpayload, hext, rfl⟩ p.kind
      (p.value * 256 + b.toNat)
  · rw [if_neg hlast, if_neg (by omega)]
    refine .ok ⟨fun p' hp' => ?_, fun h => ?_⟩ ?_ rfl rfl
    · cases hp'
      exact ⟨hpayload, Nat.lt_of_le_of_ne hread hlast⟩
    · exact hs.extension h
    · simp only [view, hpayload, gt_iff_lt, Nat.lt_irrefl, if_false, Nat.sub_sub]

theorem tokenByte_reaches {s : MessagePackFrameScanner} (hs : s.Clear)
    (hle : s.frameBytes + 1 ≤ maxFrameBytes) (b : UInt8) :
    Reaches maxFrameBytes (s.frameBytes + 1) s.frames
      ((Residual.values s.remainingValues).step b) (s.tokenByte maxFrameBytes b) := by
  rw [tokenByte, consumeBytes_ok maxFrameBytes hle]
  simp only [bind, Except.bind]
  cases hremaining : s.remainingValues with
  | zero =>
    rw [if_pos rfl]
    exact .error fun r hr => by cases hr
  | succ m =>
    rw [if_neg (Nat.succ_ne_zero m)]
    exact @readToken_reaches maxFrameBytes
      { s with frameBytes := s.frameBytes + 1, remainingValues := m }
      ⟨hs.payload, hs.extension, hs.pending⟩ b

/-- A byte takes the scanner to the next state of the automaton, or no value
    within the limits goes on with it. -/
theorem advance_reaches {s : MessagePackFrameScanner} (hs : s.Shaped) (b : UInt8) :
    Reaches maxFrameBytes (s.frameBytes + 1) s.frames (s.view.step b)
      (s.advance maxFrameBytes b) := by
  by_cases hle : s.frameBytes + 1 ≤ maxFrameBytes
  · simp only [advance, view]
    -- the scanner looks at its fields in the order of `view`
    by_cases hpayload : s.payloadBytes > 0
    · rw [if_pos hpayload, if_pos hpayload]
      cases hext : s.extensionTypePending with
      | true => exact extensionTypeByte_reaches maxFrameBytes hs hpayload hle b
      | false => exact payloadByte_reaches maxFrameBytes hs hpayload hext hle b
    · rw [if_neg hpayload, if_neg hpayload]
      cases hpending : s.pending with
      | some p => exact lengthByte_reaches maxFrameBytes hs hpending hle b
      | none =>
        have hext : s.extensionTypePending = false := by
          by_contra h
          exact hpayload (hs.extension (by simpa using h))
        exact tokenByte_reaches maxFrameBytes ⟨Nat.eq_zero_of_not_pos hpayload, hext, hpending⟩ hle b
  · obtain ⟨e, he⟩ := advance_full maxFrameBytes (Nat.lt_of_not_le hle) b
    rw [he]
    exact .error fun r _ => .inl (by omega)

end MessagePackFrameScanner
end PipeX.FrameLimits
