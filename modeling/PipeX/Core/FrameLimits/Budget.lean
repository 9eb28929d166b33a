/-
  PipeX.Core.FrameLimits.Budget

  The byte budget of the scanner: what a frame is known to need is reserved in the
  frame limit as soon as it is declared.

  * `advance_reserved` — a byte moves what is reserved, or what it declares on top
    of that has been checked; a length field is the only place where bytes are read
    that nobody has reserved.
  * `advance_rejects` — so what does not fit is refused at the byte that completes
    its header.
  * `scan_payload` — and a payload that was accepted is skipped without a check that
    could fail.
-/
import PipeX.Core.FrameLimits.Acceptance

namespace PipeX.FrameLimits

open Chunked

namespace MessagePackFrameScanner

variable (maxFrameBytes maxFrames : Nat)

/-! ## Reachable scanners -/

/-- The scanners behind any chunks that were scanned without an error, and those
    between two passes of the loop inside a chunk. -/
inductive Reachable : MessagePackFrameScanner → Prop where
  | new : Reachable new
  | scan {s s' : MessagePackFrameScanner} {chunk : Bytes} {boundaries : List Nat}
      (hs : Reachable s)
      (hscan : s.scan maxFrameBytes maxFrames chunk = .ok (s', boundaries)) : Reachable s'
  | pass {s s' : ScanState} {input rest : Bytes} (hs : Reachable s.scanner)
      (hpass : (scanPass maxFrameBytes maxFrames s input).result = .ok (.done s' rest)) :
      Reachable s'.scanner

/-- What the frame is known to need fits behind what has been read of it. -/
def Reserved (s : MessagePackFrameScanner) : Prop :=
  s.frameBytes + s.payloadBytes + s.remainingValues ≤ maxFrameBytes

/-- The invariant of the scanner.  The bytes of a length field are read on credit:
    the reservation is made again when the field is complete. -/
structure WithinBudget (s : MessagePackFrameScanner) : Prop where
  shaped : s.Shaped
  bytes : s.frameBytes ≤ maxFrameBytes
  reserved : s.pending = none → s.Reserved maxFrameBytes

theorem withinBudget_new (hlimit : 0 < maxFrameBytes) : WithinBudget maxFrameBytes new where
  shaped := (Clear.mk rfl rfl rfl).shaped
  bytes := Nat.zero_le _
  reserved _ := hlimit

variable {maxFrameBytes maxFrames}

/-! ## What a byte reserves -/

theorem addChildren_eq_ok {s s' : MessagePackFrameScanner} {n : Nat}
    (h : s.addChildren maxFrameBytes n = .ok s') :
    s' = { s with remainingValues := s.remainingValues + n } ∧
      s.frameBytes + (s.remainingValues + n) ≤ maxFrameBytes := by
  -- the two checks of the source are the two ways not to get here
  by_cases hfits : s.frameBytes + (n + s.remainingValues) ≤ maxFrameBytes ∧
      n + s.remainingValues ≤ maxSafeInteger
  · rw [addChildren_ok maxFrameBytes hfits.2 hfits.1] at h
    cases h
    exact ⟨rfl, by omega⟩
  · obtain ⟨e, he⟩ := addChildren_error (s := s) (n := n) maxFrameBytes (by omega)
    rw [he] at h
    cases h

theorem setPayload_eq_ok {s s' : MessagePackFrameScanner} {n : Nat}
    (h : s.setPayload maxFrameBytes n = .ok s') :
    s' = { s with payloadBytes := n } ∧
      s.frameBytes + n + s.remainingValues ≤ maxFrameBytes := by
  by_cases hfits : s.frameBytes + (n + s.remainingValues) ≤ maxFrameBytes ∧ n ≤ maxSafeInteger
  · rw [setPayload_ok maxFrameBytes hfits.2 hfits.1] at h
    cases h
    exact ⟨rfl, by omega⟩
  · obtain ⟨e, he⟩ := setPayload_error (s := s) (n := n) maxFrameBytes (by omega)
    rw [he] at h
    cases h

theorem addChildren_reserved {s s' : MessagePackFrameScanner} {n : Nat} (hs : s.payloadBytes = 0)
    (h : s.addChildren maxFrameBytes n = .ok s') : s'.Reserved maxFrameBytes := by
  obtain ⟨rfl, hfits⟩ := addChildren_eq_ok h
  show s.frameBytes + s.payloadBytes + (s.remainingValues + n) ≤ maxFrameBytes
  omega

theorem setPayload_reserved {s s' : MessagePackFrameScanner} {n : Nat}
    (h : s.setPayload maxFrameBytes n = .ok s') : s'.Reserved maxFrameBytes := by
  obtain ⟨rfl, hfits⟩ := setPayload_eq_ok h
  exact hfits

/-- Setting the flag of the extension type leaves the numbers alone. -/
theorem setPayload_flag_reserved {s s' : MessagePackFrameScanner} {n : Nat} {flag : Bool}
    (h : (s.setPayload maxFrameBytes n >>= fun s => pure { s with extensionTypePending := flag }) =
      .ok s') : s'.Reserved maxFrameBytes := by
  cases hset : s.setPayload maxFrameBytes n with
  | error e =>
    rw [hset] at h
    cases h
  | ok t =>
    rw [hset] at h
    cases h
    have ht : t.Reserved maxFrameBytes := setPayload_reserved hset
    exact ht

theorem applyLength_reserved {s s' : MessagePackFrameScanner} {kind : LengthKind} {value : Nat}
    (hs : s.payloadBytes = 0) (h : s.applyLength maxFrameBytes kind value = .ok s') :
    s'.Reserved maxFrameBytes := by
  cases kind with
  | array => exact addChildren_reserved hs h
  | map => exact addChildren_reserved hs h
  | payload => exact setPayload_flag_reserved h
  | extension => exact setPayload_flag_reserved h

/-- All that a token can come to. -/
theorem readToken_cases {motive : Except JsError MessagePackFrameScanner → Prop}
    (s : MessagePackFrameScanner) (token : UInt8) (scalar : motive (.ok s))
    (invalid : motive invalidInput) (children : ∀ n, motive (s.addChildren maxFrameBytes n))
    (payload : ∀ n, motive (s.setPayload maxFrameBytes n))
    (extension : ∀ n, motive (s.setExtensionPayload maxFrameBytes n))
    (length : ∀ kind bytes, motive (.ok (s.readLength kind bytes))) :
    motive (s.readToken maxFrameBytes token) := by
  simp only [readToken]
  split
  · split
    · exact invalid
    · exact scalar
  split
  · exact children _
  split
  · exact children _
  split
  · exact payload _
  -- the tokens with a branch of their own
  split
  all_goals first
    | with_reducible exact payload _
    | with_reducible exact extension _
    | with_reducible exact length _ _
    | with_reducible exact invalid

theorem readToken_reserved {s s' : MessagePackFrameScanner} {token : UInt8}
    (hs : s.Reserved maxFrameBytes) (hpayload : s.payloadBytes = 0)
    (h : s.readToken maxFrameBytes token = .ok s') (hpending : s'.pending = none) :
    s'.Reserved maxFrameBytes := by
  revert h
  refine readToken_cases (motive := fun r => r = .ok s' → s'.Reserved maxFrameBytes) s token
    ?_ ?_ ?_ ?_ ?_ ?_
  · intro h
    cases h
    exact hs
  · intro h
    cases h
  · exact fun n h => addChildren_reserved hpayload h
  · exact fun n h => setPayload_reserved h
  · exact fun n h => setPayload_flag_reserved h
  · -- a length field reserves nothing yet
    intro kind bytes h
    cases h
    cases hpending

/-! ## What a byte uses up -/

/-- The check behind the child of a contextual extension. -/
theorem ensureMinimumRemaining_eq_ok {s : MessagePackFrameScanner} {n : Nat}
    (h : s.ensureMinimumRemaining maxFrameBytes n = .ok ()) :
    s.frameBytes + n + s.remainingValues ≤ maxFrameBytes := by
  by_contra hfull
  rw [ensureMinimumRemaining_error maxFrameBytes (Nat.lt_of_not_le hfull)] at h
  cases h

theorem extensionTypeByte_reserved {s s' : MessagePackFrameScanner} {b : UInt8}
    (hs : s.Reserved maxFrameBytes) (hpayload : s.payloadBytes > 0)
    (hle : s.frameBytes + 1 ≤ maxFrameBytes)
    (h : s.extensionTypeByte maxFrameBytes b = .ok s') : s'.Reserved maxFrameBytes := by
  simp only [Reserved] at hs
  rw [extensionTypeByte, consumeBytes_ok maxFrameBytes hle] at h
  simp only [bind, Except.bind] at h
  split at h
  · -- a contextual extension: the child is counted, then checked with the payload
    split at h
    · cases h
    rename_i t hchild
    split at h
    · cases h
    rename_i hensure
    cases h
    have hfits := ensureMinimumRemaining_eq_ok hensure
    show s'.frameBytes + s'.payloadBytes + s'.remainingValues ≤ maxFrameBytes
    exact hfits
  · -- otherwise the type byte was part of the payload
    split at h
    · cases h
    · cases h
      show s.frameBytes + 1 + (s.payloadBytes - 1) + s.remainingValues ≤ maxFrameBytes
      omega

theorem payloadByte_reserved {s s' : MessagePackFrameScanner} (hs : s.Reserved maxFrameBytes)
    (hpayload : s.payloadBytes > 0) (hle : s.frameBytes + 1 ≤ maxFrameBytes)
    (h : s.payloadByte maxFrameBytes = .ok s') : s'.Reserved maxFrameBytes := by
  simp only [Reserved] at hs
  rw [payloadByte, consumeBytes_ok maxFrameBytes hle] at h
  simp only [bind, Except.bind] at h
  split at h
  · cases h
  · cases h
    show s.frameBytes + 1 + (s.payloadBytes - 1) + s.remainingValues ≤ maxFrameBytes
    omega

/-- The last byte of a length field makes the reservation; before it, the field is still
    pending. -/
theorem lengthByte_reserved {s s' : MessagePackFrameScanner} {p : PendingLength} {b : UInt8}
    (hpayload : s.payloadBytes = 0) (hle : s.frameBytes + 1 ≤ maxFrameBytes)
    (h : s.lengthByte maxFrameBytes p b = .ok s') (hpending : s'.pending = none) :
    s'.Reserved maxFrameBytes := by
  rw [lengthByte, consumeBytes_ok maxFrameBytes hle] at h
  simp only [bind, Except.bind] at h
  split at h
  · exact applyLength_reserved (s := { s with frameBytes := s.frameBytes + 1, pending := none })
      hpayload h
  · cases h
    cases hpending

theorem tokenByte_reserved {s s' : MessagePackFrameScanner} {b : UInt8}
    (hs : s.Reserved maxFrameBytes) (hpayload : s.payloadBytes = 0)
    (hle : s.frameBytes + 1 ≤ maxFrameBytes) (h : s.tokenByte maxFrameBytes b = .ok s')
    (hpending : s'.pending = none) : s'.Reserved maxFrameBytes := by
  simp only [Reserved] at hs
  rw [tokenByte, consumeBytes_ok maxFrameBytes hle] at h
  simp only [bind, Except.bind] at h
  split at h
  · cases h
  · rename_i hremaining
    -- a byte was reserved for the value that the token opens
    have hopened : Reserved maxFrameBytes
        { s with
          frameBytes := s.frameBytes + 1
          remainingValues := s.remainingValues - 1 } := by
      show s.frameBytes + 1 + s.payloadBytes + (s.remainingValues - 1) ≤ maxFrameBytes
      omega
    exact readToken_reserved hopened hpayload h hpending

/-- A byte that is taken has been reserved, or what is reserved was checked anew. -/
theorem advance_reserved {s s' : MessagePackFrameScanner} {b : UInt8}
    (hs : s.WithinBudget maxFrameBytes) (h : s.advance maxFrameBytes b = .ok s')
    (hpending : s'.pending = none) : s'.Reserved maxFrameBytes := by
  have hle := advance_le maxFrameBytes h
  rw [advance] at h
  split at h
  · rename_i hpayload
    have hreserved := hs.reserved (hs.shaped.pending_none hpayload)
    split at h
    · exact extensionTypeByte_reserved hreserved hpayload hle h
    · exact payloadByte_reserved hreserved hpayload hle h
  · rename_i hpayload
    have hzero : s.payloadBytes = 0 := Nat.eq_zero_of_not_pos hpayload
    split at h
    · exact lengthByte_reserved hzero hle h hpending
    · exact tokenByte_reserved (hs.reserved ‹_›) hzero hle h hpending

/-- One byte keeps the budget. -/
theorem advance_budget {s s' : MessagePackFrameScanner} {b : UInt8}
    (hs : s.WithinBudget maxFrameBytes) (h : s.advance maxFrameBytes b = .ok s') :
    s'.WithinBudget maxFrameBytes := by
  have hle := advance_le maxFrameBytes h
  have hreaches := advance_reaches maxFrameBytes hs.shaped b
  rw [h] at hreaches
  obtain ⟨hshaped, -, hbytes, -⟩ | - := hreaches
  exact ⟨hshaped, by omega, advance_reserved hs h⟩

/-! ## Runs -/

/-- A closed frame leaves room for the first byte of the next. -/
theorem completeIfReady_budget (hlimit : 0 < maxFrameBytes) {s t : ScanState}
    (hs : s.scanner.WithinBudget maxFrameBytes)
    (h : (completeIfReady maxFrames s).result = .ok t) : t.scanner.WithinBudget maxFrameBytes := by
  by_cases hcomplete : s.scanner.view = .values 0
  · by_cases hframes : s.scanner.frames + 1 ≤ maxFrames
    · rw [completeIfReady_complete hcomplete hframes] at h
      cases h
      have hpayload := (view_eq_values hcomplete).1
      have hclosed : Between maxFrameBytes [] (closed s.scanner) := between_closed hcomplete
      refine ⟨hclosed.shaped, Nat.zero_le _, fun _ => ?_⟩
      show 0 + s.scanner.payloadBytes + 1 ≤ maxFrameBytes
      omega
    · obtain ⟨e, he⟩ := completeIfReady_refused hcomplete (Nat.lt_of_not_le hframes)
      rw [he] at h
      cases h
  · rw [completeIfReady_incomplete hcomplete] at h
    cases h
    exact hs

/-- Skipping part of a payload moves what is reserved. -/
theorem skip_budget {s : ScanState} {count : Nat} (hs : s.scanner.WithinBudget maxFrameBytes)
    (hpayload : s.scanner.payloadBytes > 0) (hext : s.scanner.extensionTypePending = false)
    (hcount : count ≤ s.scanner.payloadBytes) :
    (skip s count).scanner.WithinBudget maxFrameBytes := by
  have hpending := hs.shaped.pending_none hpayload
  have hreserved := hs.reserved hpending
  simp only [Reserved] at hreserved
  refine ⟨⟨fun p hp => ?_, fun h => ?_⟩, ?_, fun _ => ?_⟩
  · have hp : s.scanner.pending = some p := hp
    rw [hpending] at hp
    cases hp
  · have h : s.scanner.extensionTypePending = true := h
    rw [hext] at h
    cases h
  · show s.scanner.frameBytes + count ≤ maxFrameBytes
    omega
  · show s.scanner.frameBytes + count + (s.scanner.payloadBytes - count) +
      s.scanner.remainingValues ≤ maxFrameBytes
    omega

/-- Inside a payload that was accepted the loop only skips: neither of the two size
    checks can fail. -/
theorem payloadPass_accepted {s : ScanState} {count : Nat}
    (hs : s.scanner.WithinBudget maxFrameBytes) (hpayload : s.scanner.payloadBytes > 0)
    (hcount : count ≤ s.scanner.payloadBytes) :
    payloadPass maxFrameBytes maxFrames s count = completeIfReady maxFrames (skip s count) := by
  have hreserved := hs.reserved (hs.shaped.pending_none hpayload)
  simp only [Reserved] at hreserved
  rw [payloadPass_ok maxFrameBytes maxFrames (by omega), if_neg (by omega)]

/-- A pass that is not inside a payload takes one byte. -/
theorem scanPass_advance {s : ScanState} (b : UInt8) (rest : Bytes)
    (h : ¬ (s.scanner.payloadBytes > 0 ∧ s.scanner.extensionTypePending = false)) :
    scanPass maxFrameBytes maxFrames s (b :: rest) =
      Emit.ofExcept (s.scanner.advance maxFrameBytes b) >>= fun scanner =>
        completeIfReady maxFrames ⟨scanner, s.offset + 1⟩ >>= fun t => pure (.done t rest) := by
  by_cases hpayload : s.scanner.payloadBytes > 0
  · have hext : s.scanner.extensionTypePending = true := by
      by_contra hext
      exact h ⟨hpayload, by simpa using hext⟩
    simp only [scanPass, advance, if_pos hpayload, hext, if_true, extensionTypePass_eq, bind_assoc]
  · cases hpending : s.scanner.pending with
    | some p =>
      simp only [scanPass, advance, if_neg hpayload, hpending, pendingPass_eq, bind_assoc]
    | none =>
      simp only [scanPass, advance, if_neg hpayload, hpending, tokenPass_eq, bind_assoc]

/-- The state a pass leaves. -/
def stateOf : Progress ScanState UInt8 → ScanState
  | .more s => s
  | .done s _ => s

/-- One pass keeps the budget. -/
theorem scanPass_budget (hlimit : 0 < maxFrameBytes) {s : ScanState} {input : Bytes}
    {p : Progress ScanState UInt8} (hs : s.scanner.WithinBudget maxFrameBytes)
    (h : (scanPass maxFrameBytes maxFrames s input).result = .ok p) :
    (stateOf p).scanner.WithinBudget maxFrameBytes := by
  cases input with
  | nil =>
    cases h
    exact hs
  | cons b rest =>
    by_cases hskip : s.scanner.payloadBytes > 0 ∧ s.scanner.extensionTypePending = false
    · obtain ⟨hpayload, hext⟩ := hskip
      have hcount : min s.scanner.payloadBytes (b :: rest).length ≤ s.scanner.payloadBytes :=
        Nat.min_le_left _ _
      rw [scanPass_payload _ _ (List.cons_ne_nil b rest) hpayload hext,
        payloadPass_accepted hs hpayload hcount] at h
      obtain ⟨t, ht, h, -⟩ := Emit.bind_eq_ok h
      have hbudget := completeIfReady_budget hlimit (skip_budget hs hpayload hext hcount) ht
      split at h
      · cases h
        exact hbudget
      · cases h
        exact hbudget
    · rw [scanPass_advance b rest hskip] at h
      obtain ⟨scanner, hadvance, h, -⟩ := Emit.bind_eq_ok h
      obtain ⟨t, ht, h, -⟩ := Emit.bind_eq_ok h
      cases h
      exact completeIfReady_budget (s := ⟨scanner, s.offset + 1⟩) hlimit
        (advance_budget hs hadvance) ht

/-- The loop over a chunk keeps the budget, by induction along its passes. -/
theorem run_budget (hlimit : 0 < maxFrameBytes) {s t : ScanState} {input : Bytes}
    (hs : s.scanner.WithinBudget maxFrameBytes)
    (h : ((scanLoop maxFrameBytes maxFrames).run s input).result = .ok t) :
    t.scanner.WithinBudget maxFrameBytes := by
  induction s, input using (scanLoop maxFrameBytes maxFrames).induct with
  | nil s =>
    cases h
    exact hs
  | pass s input hne ih =>
    rw [InputLoop.run_of_ne_nil _ s hne] at h
    obtain ⟨p, hpass, h, -⟩ := Emit.bind_eq_ok h
    have hp := scanPass_budget hlimit hs hpass
    cases p with
    | more s' =>
      cases h
      exact hp
    | done s' rest => exact ih s' rest hpass hp h

/-- Every reachable scanner is within its budget. -/
theorem Reachable.withinBudget (hlimit : 0 < maxFrameBytes) {s : MessagePackFrameScanner}
    (h : Reachable maxFrameBytes maxFrames s) : s.WithinBudget maxFrameBytes := by
  induction h with
  | new => exact withinBudget_new maxFrameBytes hlimit
  | @scan s s' chunk boundaries _ hscan ih =>
    cases hrun : ((scanLoop maxFrameBytes maxFrames).run ⟨s, 0⟩ chunk).result with
    | error e =>
      simp only [MessagePackFrameScanner.scan, hrun] at hscan
      cases hscan
    | ok t =>
      simp only [MessagePackFrameScanner.scan, hrun] at hscan
      cases hscan
      exact run_budget (s := ⟨s, 0⟩) hlimit ih hrun
  | pass _ hpass ih => exact scanPass_budget hlimit ih hpass

/-! ## Headers -/

/-- The payload bytes and the values that a frame still needs behind a header, `m`
    values being needed without it. -/
def owed (m : Nat) : Content → Nat × Nat
  | .payload bytes => (bytes, m)
  | .children values => (0, values + m)
  | .extension bytes => (bytes + 1, m)

/-- What a frame still needs behind a byte that completes a header; `none` where the
    byte completes none. -/
def declared (s : MessagePackFrameScanner) (b : UInt8) : Option (Nat × Nat) :=
  if s.payloadBytes > 0 then
    -- the type byte of a contextual extension declares one more value
    if s.extensionTypePending ∧ takesValue b then some (s.payloadBytes - 1, s.remainingValues + 1)
    else none
  else
    match s.pending with
    | some p =>
      if p.read + 1 = p.bytes then
        some (owed s.remainingValues (p.kind.field.content (p.value * 256 + b.toNat)))
      else none
    | none =>
      match opening b with
      | some (.direct content) => some (owed (s.remainingValues - 1) content)
      | _ => none

/-- What a scanner still needs when no length field is pending. -/
theorem view_minimum {s : MessagePackFrameScanner} (hpending : s.pending = none) :
    s.view.minimum = s.payloadBytes + s.remainingValues := by
  simp only [view, hpending]
  split
  · split
    · show 1 + (s.payloadBytes - 1) + s.remainingValues = s.payloadBytes + s.remainingValues
      omega
    · rfl
  · show s.remainingValues = s.payloadBytes + s.remainingValues
    omega

/-- A length field shows in the view. -/
theorem pending_of_view {s : MessagePackFrameScanner} (hs : s.Shaped)
    (h : ∀ left value f m, s.view ≠ .length left value f m) : s.pending = none := by
  cases hpending : s.pending with
  | none => rfl
  | some p =>
    have hpayload := (hs.pending p hpending).1
    have hview : s.view = .length (p.bytes - p.read) p.value p.kind.field s.remainingValues := by
      simp only [view, hpayload, hpending, gt_iff_lt, Nat.lt_irrefl, if_false]
    exact absurd hview (h _ _ _ _)

theorem ofContent_owed (m : Nat) (content : Content) :
    (Residual.ofContent m content).minimum = (owed m content).1 + (owed m content).2 ∧
      ∀ left value f k, Residual.ofContent m content ≠ .length left value f k := by
  cases content with
  | payload bytes =>
    refine ⟨afterPayload_minimum bytes m, fun left value f k h => ?_⟩
    simp only [Residual.ofContent, Residual.afterPayload] at h
    split at h
    · cases h
    · cases h
  | children values =>
    refine ⟨?_, fun left value f k h => by cases h⟩
    show values + m = 0 + (values + m)
    omega
  | extension bytes =>
    refine ⟨?_, fun left value f k h => by cases h⟩
    show 1 + bytes + m = bytes + 1 + m
    omega

/-- The grammar agrees on what a completed header declares. -/
theorem declared_step {s : MessagePackFrameScanner} {b : UInt8} {payload values : Nat}
    {r : Residual} (hd : s.declared b = some (payload, values)) (hstep : s.view.step b = some r) :
    r.minimum = payload + values ∧ ∀ left value f m, r ≠ .length left value f m := by
  simp only [declared] at hd
  simp only [view] at hstep
  split at hd
  · rename_i hpayload
    rw [if_pos hpayload] at hstep
    split at hd
    · rename_i hcontextual
      cases hd
      simp only [hcontextual.1, if_true, Residual.step, hcontextual.2] at hstep
      cases hstep
      exact ofContent_owed (s.remainingValues + 1) (.payload (s.payloadBytes - 1))
    · cases hd
  · rename_i hpayload
    rw [if_neg hpayload] at hstep
    split at hd
    · rename_i p hpending
      split at hd
      · rename_i hlast
        -- the last byte of the field
        have hone : p.bytes - p.read = 1 := by omega
        simp only [hpending, Residual.step, hone, if_true] at hstep
        cases hstep
        have howed := ofContent_owed s.remainingValues (p.kind.field.content (p.value * 256 + b.toNat))
        rw [Option.some.inj hd] at howed
        exact howed
      · cases hd
    · rename_i hpending
      simp only [hpending] at hstep
      split at hd
      · rename_i content hopening
        cases hremaining : s.remainingValues with
        | zero =>
          rw [hremaining] at hstep
          cases hstep
        | succ m =>
          rw [hremaining] at hd hstep
          simp only [Residual.step, hopening, Option.map_some, Residual.ofOpening] at hstep
          cases hstep
          have howed := ofContent_owed m content
          have hcontent : owed m content = (payload, values) := Option.some.inj hd
          rw [hcontent] at howed
          exact howed
      · cases hd

/-- What does not fit is refused at the byte that completes its header. -/
theorem advance_rejects {s : MessagePackFrameScanner} {b : UInt8} {payload values : Nat}
    (hs : s.WithinBudget maxFrameBytes) (hd : s.declared b = some (payload, values))
    (hfull : maxFrameBytes < s.frameBytes + 1 + payload + values) :
    ∃ e, s.advance maxFrameBytes b = .error e := by
  cases hadvance : s.advance maxFrameBytes b with
  | error e => exact ⟨e, rfl⟩
  | ok s' =>
    -- a scanner that goes on would have reserved what was declared
    have hreaches := advance_reaches maxFrameBytes hs.shaped b
    rw [hadvance] at hreaches
    obtain ⟨hshaped, hview, hbytes, -⟩ | - := hreaches
    obtain ⟨hmin, hlength⟩ := declared_step hd hview
    have hpending := pending_of_view hshaped hlength
    have hreserved := advance_reserved hs hadvance hpending
    have hneeds := view_minimum hpending
    simp only [Reserved] at hreserved
    omega

/-- A byte that is refused ends the scan, whatever follows it. -/
theorem scan_of_advance_error {s : MessagePackFrameScanner} {b : UInt8} {e : JsError}
    (h : s.advance maxFrameBytes b = .error e) (rest : Bytes) :
    s.scan maxFrameBytes maxFrames (b :: rest) = .error e := by
  rw [scan, run_cons, h]
  rfl

/-! ## Payloads -/

theorem frameTooLarge_ne_frameCount {α : Type} (maxFrameBytes maxFrames : Nat) :
    (frameTooLarge maxFrameBytes : Except JsError α) ≠
      .error (plainError s!"[PipeX] Frame count exceeds {maxFrames}") := by
  intro h
  have hmessage := congrArg JsError.message (Except.error.inj h)
  change "[PipeX] MessagePack frame exceeds " ++ toString maxFrameBytes ++ " bytes" =
    "[PipeX] Frame count exceeds " ++ toString maxFrames at hmessage
  have hchars := congrArg String.toList hmessage
  simp [String.toList_append] at hchars

theorem frameTooLarge_ne_invalidInput {α : Type} (maxFrameBytes : Nat) :
    (frameTooLarge maxFrameBytes : Except JsError α) ≠ invalidInput := by
  intro h
  have hmessage := congrArg JsError.message (Except.error.inj h)
  change "[PipeX] MessagePack frame exceeds " ++ toString maxFrameBytes ++ " bytes" =
    "[PipeX] Invalid MessagePack input" at hmessage
  have hchars := congrArg String.toList hmessage
  simp [String.toList_append] at hchars

/-- Closing a frame can only find one frame too many. -/
theorem completeIfReady_ne_frameTooLarge (s : ScanState) :
    (completeIfReady maxFrames s).result ≠ frameTooLarge maxFrameBytes := by
  simp only [completeIfReady]
  split
  · intro h
    cases h
  · split
    · exact fun h => frameTooLarge_ne_frameCount maxFrameBytes maxFrames h.symm
    · intro h
      cases h

/-- A scan fails with what its loop fails with. -/
theorem scan_ne_frameTooLarge {s : MessagePackFrameScanner} {chunk : Bytes}
    (h : ((scanLoop maxFrameBytes maxFrames).run ⟨s, 0⟩ chunk).result ≠
      frameTooLarge maxFrameBytes) :
    s.scan maxFrameBytes maxFrames chunk ≠ frameTooLarge maxFrameBytes := by
  rw [scan]
  cases hrun : ((scanLoop maxFrameBytes maxFrames).run ⟨s, 0⟩ chunk).result with
  | error e =>
    rw [hrun] at h
    intro heq
    cases heq
    exact h rfl
  | ok t =>
    intro heq
    cases heq

/-- Skipping an accepted payload, or part of it, never meets the frame limit. -/
theorem scan_payload {s : MessagePackFrameScanner} {chunk : Bytes}
    (hs : s.WithinBudget maxFrameBytes) (hext : s.extensionTypePending = false)
    (hle : chunk.length ≤ s.payloadBytes) :
    s.scan maxFrameBytes maxFrames chunk ≠ frameTooLarge maxFrameBytes := by
  apply scan_ne_frameTooLarge
  by_cases hne : chunk = []
  · subst hne
    intro h
    cases h
  · have hlen := List.length_pos_iff.mpr hne
    have hpayload : s.payloadBytes > 0 := Nat.lt_of_lt_of_le hlen hle
    have hcount : min s.payloadBytes chunk.length = chunk.length := Nat.min_eq_right hle
    rw [InputLoop.run_of_ne_nil _ _ hne, scanLoop_body,
      scanPass_payload maxFrameBytes maxFrames hne hpayload hext, hcount,
      payloadPass_accepted (s := ⟨s, 0⟩) hs hpayload hle, List.drop_length, bind_assoc,
      Emit.bind_result]
    -- the chunk is used up, so that the loop ends where the pass does
    cases hready : (completeIfReady maxFrames (skip ⟨s, 0⟩ chunk.length)).result with
    | error e =>
      have hne : (completeIfReady maxFrames (skip ⟨s, 0⟩ chunk.length)).result ≠
          frameTooLarge maxFrameBytes := completeIfReady_ne_frameTooLarge _
      rw [hready] at hne
      exact hne
    | ok t =>
      simp only [Except.bind]
      split
      · intro h
        cases h
      · intro h
        cases h

/-- A child that fits is no reason for the frame-size error. -/
theorem addChild_ne_frameTooLarge {s : MessagePackFrameScanner}
    (hfits : s.frameBytes + s.payloadBytes + (s.remainingValues + 1) ≤ maxFrameBytes) :
    (s.addChildren maxFrameBytes 1 >>= fun s =>
      s.ensureMinimumRemaining maxFrameBytes s.payloadBytes >>= fun _ => pure s) ≠
        frameTooLarge maxFrameBytes := by
  by_cases hsafe : 1 + s.remainingValues ≤ maxSafeInteger
  · have hmin : ensureMinimumRemaining maxFrameBytes
        { s with remainingValues := s.remainingValues + 1 } s.payloadBytes = .ok () :=
      ensureMinimumRemaining_ok maxFrameBytes hfits
    rw [addChildren_ok maxFrameBytes hsafe (by omega)]
    simp only [bind, Except.bind, hmin]
    intro h
    cases h
  · -- more values than can be counted are no valid input
    have hunsafe : (JsNumber.integer (1 : Nat)).isSafeInteger = false ∨ ((1 : Nat) : Int) < 0 ∨
        ((1 : Nat) : Int) > (maxSafeInteger : Int) - s.remainingValues :=
      .inr (.inr (by omega))
    rw [addChildren, if_pos hunsafe]
    exact fun h => frameTooLarge_ne_invalidInput maxFrameBytes h.symm

/-- The type byte of an extension was reserved; only the value that a contextual
    extension adds can be too much. -/
theorem extensionTypeByte_ne_frameTooLarge {s : MessagePackFrameScanner} {b : UInt8}
    (hs : s.Reserved maxFrameBytes) (hpayload : s.payloadBytes > 0)
    (hchild : takesValue b = true →
      s.frameBytes + s.payloadBytes + s.remainingValues + 1 ≤ maxFrameBytes) :
    s.extensionTypeByte maxFrameBytes b ≠ frameTooLarge maxFrameBytes := by
  simp only [Reserved] at hs
  rw [extensionTypeByte, consumeBytes_ok maxFrameBytes (by omega)]
  simp only [bind, Except.bind, extensionType_contextual]
  split
  · rename_i htakes
    have hfits := hchild htakes
    refine @addChild_ne_frameTooLarge maxFrameBytes
      { s with
        frameBytes := s.frameBytes + 1
        payloadBytes := s.payloadBytes - 1
        extensionTypePending := false } ?_
    show s.frameBytes + 1 + (s.payloadBytes - 1) + (s.remainingValues + 1) ≤ maxFrameBytes
    omega
  · split
    · exact fun h => frameTooLarge_ne_invalidInput maxFrameBytes h.symm
    · intro h
      cases h

theorem scan_extensionType {s : MessagePackFrameScanner} {b : UInt8}
    (hs : s.Reserved maxFrameBytes) (hpayload : s.payloadBytes > 0)
    (hext : s.extensionTypePending = true)
    (hchild : takesValue b = true →
      s.frameBytes + s.payloadBytes + s.remainingValues + 1 ≤ maxFrameBytes) :
    s.scan maxFrameBytes maxFrames [b] ≠ frameTooLarge maxFrameBytes := by
  apply scan_ne_frameTooLarge
  have hbyte := extensionTypeByte_ne_frameTooLarge hs hpayload hchild
  rw [run_singleton, Emit.bind_result, Emit.ofExcept_result]
  simp only [advance, if_pos hpayload, hext, if_true]
  cases htype : s.extensionTypeByte maxFrameBytes b with
  | error e =>
    rw [htype] at hbyte
    exact fun h => hbyte (congrArg (fun e : Except JsError ScanState => e.map (·.scanner)) h)
  | ok t => exact completeIfReady_ne_frameTooLarge ⟨t, 0 + 1⟩

/-! ## The budget -/

variable (maxFrameBytes maxFrames)

/-- The byte budget in a state of the scanner. -/
structure ByteBudget (s : MessagePackFrameScanner) : Prop where
  bytes : s.frameBytes ≤ maxFrameBytes
  reserved : s.pending = none →
    s.frameBytes + s.payloadBytes + s.remainingValues ≤ maxFrameBytes
  /-- a length or count that does not fit is refused at the byte that completes its header -/
  rejects : ∀ b payload values, s.declared b = some (payload, values) →
    maxFrameBytes < s.frameBytes + 1 + payload + values →
      ∃ e, ∀ rest, s.scan maxFrameBytes maxFrames (b :: rest) = .error e
  /-- a payload that was accepted is consumed without the frame-size error -/
  payload : ∀ chunk, s.extensionTypePending = false → chunk.length ≤ s.payloadBytes →
    s.scan maxFrameBytes maxFrames chunk ≠ frameTooLarge maxFrameBytes
  /-- and so is the type byte of an extension, the value of a contextual one apart -/
  extensionType : ∀ b, s.payloadBytes > 0 → s.extensionTypePending = true →
    (takesValue b = true →
      s.frameBytes + s.payloadBytes + s.remainingValues + 1 ≤ maxFrameBytes) →
      s.scan maxFrameBytes maxFrames [b] ≠ frameTooLarge maxFrameBytes

/-- Every state that any chunks lead the scanner to without an error keeps the byte
    budget. -/
theorem scanner_budget (hlimit : 0 < maxFrameBytes) (s : MessagePackFrameScanner)
    (h : Reachable maxFrameBytes maxFrames s) : s.ByteBudget maxFrameBytes maxFrames := by
  have hs := h.withinBudget hlimit
  refine ⟨hs.bytes, hs.reserved, fun b payload values hd hfull => ?_,
    fun chunk hext hle => scan_payload hs hext hle, fun b hpayload hext hchild => ?_⟩
  · obtain ⟨e, he⟩ := advance_rejects hs hd hfull
    exact ⟨e, scan_of_advance_error he⟩
  · exact scan_extensionType (hs.reserved (hs.shaped.pending_none hpayload)) hpayload hext hchild

/-- An array of two, cut inside its first string: the frame limit of 6 bytes is used up
    by the 3 bytes read, the 2 of the string and the value behind it. -/
theorem scanner_budget_full :
    ByteBudget 6 1 { new with frameBytes := 3, payloadBytes := 2, remainingValues := 1 } :=
  have hread : Reachable 6 1 { new with frameBytes := 2, payloadBytes := 3, remainingValues := 1 } :=
    @Reachable.scan 6 1 _ _ [0x92, 0xa3] [] .new (by rfl)
  scanner_budget 6 1 (by decide) _ (@Reachable.scan 6 1 _ _ [0x61] [] hread (by rfl))

end MessagePackFrameScanner
end PipeX.FrameLimits
