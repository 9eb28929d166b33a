/-
  PipeX.Core.FrameLimits.ScanBytes

  The scanner one byte at a time.

  * `scanLoop_splits` — skipping a payload in one go or in several comes to the
    same, limit checks included.
  * `run_cons` — the loop takes one byte (`advance`), closes the frame if it is
    complete, and goes on.
-/
import PipeX.Core.FrameLimits.Scanner

namespace PipeX.FrameLimits

open Chunked

namespace MessagePackFrameScanner

variable (maxFrameBytes maxFrames : Nat)

/-! ## Cuts -/

@[simp] theorem scanLoop_body :
    (scanLoop maxFrameBytes maxFrames).body = scanPass maxFrameBytes maxFrames := rfl

/-- Bytes beyond the frame limit. -/
theorem consumeBytes_error {s : MessagePackFrameScanner} {count : Nat}
    (h : maxFrameBytes < s.frameBytes + count) :
    s.consumeBytes maxFrameBytes count = frameTooLarge maxFrameBytes :=
  if_pos (by omega)

/-- Bytes within the frame limit. -/
theorem consumeBytes_ok {s : MessagePackFrameScanner} {count : Nat}
    (h : s.frameBytes + count ≤ maxFrameBytes) :
    s.consumeBytes maxFrameBytes count = .ok { s with frameBytes := s.frameBytes + count } :=
  if_neg (by omega)

theorem completeIfReady_of_payload {s : ScanState} (h : s.scanner.payloadBytes > 0) :
    completeIfReady maxFrames s = pure s :=
  if_pos (.inr (.inl h))

/-- The source asks for completion only behind a full payload. -/
theorem completeIfReady_eq_ite (s : ScanState) :
    (if s.scanner.payloadBytes = 0 then completeIfReady maxFrames s else pure s) =
      completeIfReady maxFrames s := by
  split
  · rfl
  · exact (completeIfReady_of_payload maxFrames (Nat.pos_of_ne_zero ‹_›)).symm

/-- A scanner behind `count` payload bytes. -/
def skip (s : ScanState) (count : Nat) : ScanState :=
  ⟨{ s.scanner with
      frameBytes := s.scanner.frameBytes + count
      payloadBytes := s.scanner.payloadBytes - count }, s.offset + count⟩

theorem payloadPass_error {s : ScanState} {count : Nat}
    (h : maxFrameBytes < s.scanner.frameBytes + count) :
    payloadPass maxFrameBytes maxFrames s count = Emit.ofExcept (frameTooLarge maxFrameBytes) := by
  rw [payloadPass, consumeBytes_error maxFrameBytes h]
  rfl

theorem payloadPass_ok {s : ScanState} {count : Nat}
    (h : s.scanner.frameBytes + count ≤ maxFrameBytes) :
    payloadPass maxFrameBytes maxFrames s count =
      if s.scanner.payloadBytes > count ∧ s.scanner.frameBytes + count = maxFrameBytes then
        Emit.ofExcept (frameTooLarge maxFrameBytes)
      else completeIfReady maxFrames (skip s count) := by
  rw [payloadPass, consumeBytes_ok maxFrameBytes h]
  change (if s.scanner.payloadBytes - count > 0 ∧ s.scanner.frameBytes + count = maxFrameBytes then
      Emit.ofExcept (frameTooLarge maxFrameBytes)
    else if (skip s count).scanner.payloadBytes = 0 then completeIfReady maxFrames (skip s count)
    else pure (skip s count)) = _
  rw [completeIfReady_eq_ite]
  simp only [gt_iff_lt, Nat.sub_pos_iff_lt]

/-- Skipping part of a payload first and the rest later. -/
theorem payloadPass_add {s : ScanState} {m n : Nat} (hm : m < s.scanner.payloadBytes)
    (hn : 0 < n) :
    payloadPass maxFrameBytes maxFrames s (m + n) =
      payloadPass maxFrameBytes maxFrames s m >>= fun s' =>
        payloadPass maxFrameBytes maxFrames s' n := by
  by_cases hle : s.scanner.frameBytes + m < maxFrameBytes
  · have hskip : payloadPass maxFrameBytes maxFrames s m = pure (skip s m) := by
      rw [payloadPass_ok _ _ (Nat.le_of_lt hle), if_neg (by omega)]
      exact completeIfReady_of_payload maxFrames (Nat.sub_pos_of_lt hm)
    rw [hskip, pure_bind]
    by_cases hle' : s.scanner.frameBytes + (m + n) ≤ maxFrameBytes
    · have hle'' : (skip s m).scanner.frameBytes + n ≤ maxFrameBytes := by
        change s.scanner.frameBytes + m + n ≤ maxFrameBytes
        omega
      have hskips : skip (skip s m) n = skip s (m + n) := by
        simp only [skip, Nat.add_assoc, Nat.sub_sub]
      rw [payloadPass_ok _ _ hle', payloadPass_ok _ _ hle'', hskips]
      simp only [skip, Nat.add_assoc, gt_iff_lt, Nat.lt_sub_iff_add_lt, Nat.add_comm n m]
    · rw [payloadPass_error _ _ (by omega), payloadPass_error]
      change maxFrameBytes < s.scanner.frameBytes + m + n
      omega
  · -- the limit is reached before the payload is complete
    have hm' : payloadPass maxFrameBytes maxFrames s m =
        Emit.ofExcept (frameTooLarge maxFrameBytes) := by
      by_cases heq : s.scanner.frameBytes + m = maxFrameBytes
      · rw [payloadPass_ok _ _ (by omega), if_pos ⟨hm, heq⟩]
      · exact payloadPass_error _ _ (by omega)
    rw [hm', payloadPass_error _ _ (by omega)]
    rfl

/-- What a payload leaves of the limits and of itself. -/
theorem payloadPass_result {s s' : ScanState} {count : Nat} (hcount : count < s.scanner.payloadBytes)
    (h : (payloadPass maxFrameBytes maxFrames s count).result = .ok s') : s' = skip s count := by
  by_cases hle : s.scanner.frameBytes + count ≤ maxFrameBytes
  · rw [payloadPass_ok _ _ hle] at h
    split at h
    · cases h
    · rw [completeIfReady_of_payload maxFrames (Nat.sub_pos_of_lt hcount)] at h
      cases h
      rfl
  · rw [payloadPass_error _ _ (by omega)] at h
    cases h

/-- The pass inside a payload. -/
theorem scanPass_payload {s : ScanState} {input : Bytes} (hinput : input ≠ [])
    (hpayload : s.scanner.payloadBytes > 0) (hext : s.scanner.extensionTypePending = false) :
    scanPass maxFrameBytes maxFrames s input =
      payloadPass maxFrameBytes maxFrames s (min s.scanner.payloadBytes input.length) >>= fun s' =>
        if s.scanner.payloadBytes > input.length then pure (.more s')
        else pure (.done s' (input.drop (min s.scanner.payloadBytes input.length))) := by
  obtain ⟨x, xs, rfl⟩ := List.exists_cons_of_ne_nil hinput
  simp only [scanPass, if_pos hpayload, hext, Bool.false_eq_true, if_false]

theorem scanPass_payload_append {s : ScanState} {a b : Bytes} (ha : a ≠ []) (hb : b ≠ [])
    (hpayload : s.scanner.payloadBytes > 0) (hext : s.scanner.extensionTypePending = false) :
    scanPass maxFrameBytes maxFrames s (a ++ b) =
      scanPass maxFrameBytes maxFrames s a >>= (scanLoop maxFrameBytes maxFrames).resume b := by
  have hlen : (a ++ b).length = a.length + b.length := List.length_append
  have hbpos := List.length_pos_iff.mpr hb
  rw [scanPass_payload _ _ (by simp [ha]) hpayload hext, scanPass_payload _ _ ha hpayload hext,
    bind_assoc]
  -- the payload ends within the first part, or goes on in the second
  by_cases hle : s.scanner.payloadBytes ≤ a.length
  · have hmin : min s.scanner.payloadBytes (a ++ b).length = s.scanner.payloadBytes := by omega
    have hmin' : min s.scanner.payloadBytes a.length = s.scanner.payloadBytes := by omega
    simp only [hmin, hmin', if_neg (show ¬ s.scanner.payloadBytes > (a ++ b).length by omega),
      if_neg (show ¬ s.scanner.payloadBytes > a.length by omega), pure_bind, InputLoop.resume_done,
      List.drop_append_of_le_length hle]
  · have hlt : a.length < s.scanner.payloadBytes := by omega
    have hmin : min s.scanner.payloadBytes (a ++ b).length =
        a.length + min (s.scanner.payloadBytes - a.length) b.length := by omega
    have hmin' : min s.scanner.payloadBytes a.length = a.length := by omega
    rw [hmin, hmin', payloadPass_add _ _ hlt (by omega), bind_assoc]
    refine Emit.bind_congr' fun s' hs' => ?_
    have hskip := payloadPass_result _ _ hlt hs'
    -- the rest of the payload is read from the second part
    have hpayload' : s'.scanner.payloadBytes = s.scanner.payloadBytes - a.length := by
      rw [hskip]
      rfl
    have hext' : s'.scanner.extensionTypePending = false := by
      rw [hskip]
      exact hext
    rw [if_pos hlt, pure_bind, InputLoop.resume_more, scanLoop_body,
      scanPass_payload _ _ hb (by omega) hext', hpayload']
    refine Emit.bind_congr' fun s'' _ => ?_
    by_cases hmore : s.scanner.payloadBytes > (a ++ b).length
    · rw [if_pos hmore, if_pos (by omega)]
    · rw [if_neg hmore, if_neg (by omega), List.drop_length_add_append]

/-- The loop does not see where its input is cut. -/
theorem scanLoop_splits : (scanLoop maxFrameBytes maxFrames).Splits := by
  intro s a b ha hb
  rw [scanLoop_body]
  -- only a payload takes more than one byte in a pass
  by_cases hpayload : s.scanner.payloadBytes > 0
  · cases hext : s.scanner.extensionTypePending with
    | false => exact scanPass_payload_append _ _ ha hb hpayload hext
    | true =>
      obtain ⟨x, xs, rfl⟩ := List.exists_cons_of_ne_nil ha
      simp only [List.cons_append, scanPass, if_pos hpayload, hext, if_true, bind_assoc, pure_bind,
        InputLoop.resume_done]
  · obtain ⟨x, xs, rfl⟩ := List.exists_cons_of_ne_nil ha
    cases hpending : s.scanner.pending with
    | some pending =>
      simp only [List.cons_append, scanPass, if_neg hpayload, hpending, bind_assoc, pure_bind,
        InputLoop.resume_done]
    | none =>
      simp only [List.cons_append, scanPass, if_neg hpayload, hpending, bind_assoc, pure_bind,
        InputLoop.resume_done]

/-! ## One byte -/

/-- The type byte of an extension, without the completion of a frame. -/
def extensionTypeByte (s : MessagePackFrameScanner) (b : UInt8) :
    Except JsError MessagePackFrameScanner := do
  let s ← s.consumeBytes maxFrameBytes 1
  let s := { s with payloadBytes := s.payloadBytes - 1, extensionTypePending := false }
  if b = 0x65 ∨ b = 0x73 ∨ b = 0x78 then
    let s ← s.addChildren maxFrameBytes 1
    s.ensureMinimumRemaining maxFrameBytes s.payloadBytes
    return s
  else if b ≠ 0x00 ∧ b ≠ 0x42 ∧ b ≠ 0x74 ∧ b ≠ 0xff then invalidInput
  else return s

/-- A payload byte. -/
def payloadByte (s : MessagePackFrameScanner) : Except JsError MessagePackFrameScanner := do
  let s ← s.consumeBytes maxFrameBytes 1
  let s := { s with payloadBytes := s.payloadBytes - 1 }
  if s.payloadBytes > 0 ∧ s.frameBytes = maxFrameBytes then frameTooLarge maxFrameBytes
  else return s

/-- A byte of a length field. -/
def lengthByte (s : MessagePackFrameScanner) (pending : PendingLength) (b : UInt8) :
    Except JsError MessagePackFrameScanner := do
  let s ← s.consumeBytes maxFrameBytes 1
  let pending := { pending with value := pending.value * 256 + b.toNat, read := pending.read + 1 }
  if pending.read = pending.bytes then
    applyLength maxFrameBytes { s with pending := none } pending.kind pending.value
  else return { s with pending := some pending }

/-- The first byte of a value. -/
def tokenByte (s : MessagePackFrameScanner) (b : UInt8) : Except JsError MessagePackFrameScanner := do
  let s ← s.consumeBytes maxFrameBytes 1
  if s.remainingValues = 0 then invalidInput
  else readToken maxFrameBytes { s with remainingValues := s.remainingValues - 1 } b

/-- One byte. -/
def advance (s : MessagePackFrameScanner) (b : UInt8) : Except JsError MessagePackFrameScanner :=
  if s.payloadBytes > 0 then
    if s.extensionTypePending then s.extensionTypeByte maxFrameBytes b
    else s.payloadByte maxFrameBytes
  else
    match s.pending with
    | some pending => s.lengthByte maxFrameBytes pending b
    | none => s.tokenByte maxFrameBytes b

theorem extensionTypePass_eq (s : ScanState) (b : UInt8) :
    extensionTypePass maxFrameBytes maxFrames s b =
      Emit.ofExcept (s.scanner.extensionTypeByte maxFrameBytes b) >>= fun scanner =>
        completeIfReady maxFrames ⟨scanner, s.offset + 1⟩ := by
  simp only [extensionTypePass, extensionTypeByte, Emit.liftM_eq, Emit.ofExcept_bind, bind_assoc,
    completeIfReady_eq_ite maxFrames ⟨_, _⟩]
  refine Emit.bind_congr' fun scanner _ => ?_
  split
  · simp only [Emit.ofExcept_bind, bind_assoc, pure_bind, Emit.ofExcept_pure]
  · split
    · rfl
    · simp only [pure_bind, Emit.ofExcept_pure]

theorem payloadPass_one (s : ScanState) :
    payloadPass maxFrameBytes maxFrames s 1 =
      Emit.ofExcept (s.scanner.payloadByte maxFrameBytes) >>= fun scanner =>
        completeIfReady maxFrames ⟨scanner, s.offset + 1⟩ := by
  simp only [payloadPass, payloadByte, Emit.liftM_eq, Emit.ofExcept_bind, bind_assoc]
  refine Emit.bind_congr' fun scanner _ => ?_
  split
  · rfl
  · simp only [pure_bind, Emit.ofExcept_pure]
    exact completeIfReady_eq_ite maxFrames
      ⟨{ scanner with payloadBytes := scanner.payloadBytes - 1 }, s.offset + 1⟩

theorem pendingPass_eq (s : ScanState) (pending : PendingLength) (b : UInt8) :
    pendingPass maxFrameBytes maxFrames s pending b =
      Emit.ofExcept (s.scanner.lengthByte maxFrameBytes pending b) >>= fun scanner =>
        completeIfReady maxFrames ⟨scanner, s.offset + 1⟩ := by
  simp only [pendingPass, lengthByte, Emit.liftM_eq, Emit.ofExcept_bind, bind_assoc]
  refine Emit.bind_congr' fun scanner _ => ?_
  split
  · rfl
  · simp only [Emit.ofExcept_pure, pure_bind, completeIfReady, Option.isSome_some, true_or, if_true]

theorem tokenPass_eq (s : ScanState) (b : UInt8) :
    tokenPass maxFrameBytes maxFrames s b =
      Emit.ofExcept (s.scanner.tokenByte maxFrameBytes b) >>= fun scanner =>
        completeIfReady maxFrames ⟨scanner, s.offset + 1⟩ := by
  simp only [tokenPass, tokenByte, Emit.liftM_eq, Emit.ofExcept_bind, bind_assoc]
  refine Emit.bind_congr' fun scanner _ => ?_
  split <;> rfl

theorem run_singleton (s : ScanState) (b : UInt8) :
    (scanLoop maxFrameBytes maxFrames).run s [b] =
      Emit.ofExcept (s.scanner.advance maxFrameBytes b) >>= fun scanner =>
        completeIfReady maxFrames ⟨scanner, s.offset + 1⟩ := by
  rw [InputLoop.run_cons, scanLoop_body]
  by_cases hpayload : s.scanner.payloadBytes > 0
  · simp only [advance, if_pos hpayload]
    cases hext : s.scanner.extensionTypePending with
    | true =>
      simp only [if_true, ← extensionTypePass_eq, scanPass, if_pos hpayload, hext, bind_assoc,
        pure_bind, InputLoop.next_done, InputLoop.run_nil, bind_pure]
    | false =>
      -- one byte of the payload is all there is
      have hone : min s.scanner.payloadBytes [b].length = 1 := by
        rw [List.length_singleton]
        omega
      rw [scanPass_payload _ _ (List.cons_ne_nil _ _) hpayload hext, hone, payloadPass_one,
        bind_assoc]
      simp only [Bool.false_eq_true, if_false, List.drop_one, List.tail_cons, bind_assoc]
      refine Emit.bind_congr' fun scanner _ => ?_
      split
      · simp only [pure_bind, InputLoop.next_more, bind_pure]
      · simp only [pure_bind, InputLoop.next_done, InputLoop.run_nil, bind_pure]
  · simp only [advance, if_neg hpayload, scanPass]
    cases hpending : s.scanner.pending with
    | some pending =>
      simp only [← pendingPass_eq, bind_assoc, pure_bind, InputLoop.next_done, InputLoop.run_nil,
        bind_pure]
    | none =>
      simp only [← tokenPass_eq, bind_assoc, pure_bind, InputLoop.next_done, InputLoop.run_nil,
        bind_pure]

/-- The loop takes one byte, closes the frame if it is complete, and goes on. -/
theorem run_cons (s : ScanState) (b : UInt8) (q : Bytes) :
    (scanLoop maxFrameBytes maxFrames).run s (b :: q) =
      Emit.ofExcept (s.scanner.advance maxFrameBytes b) >>= fun scanner =>
        completeIfReady maxFrames ⟨scanner, s.offset + 1⟩ >>= fun s' =>
          (scanLoop maxFrameBytes maxFrames).run s' q := by
  rw [← List.singleton_append, (scanLoop_splits maxFrameBytes maxFrames).run_append, run_singleton,
    bind_assoc]

end MessagePackFrameScanner
end PipeX.FrameLimits
