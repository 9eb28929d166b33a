/-
  PipeX.Core.FrameLimits.Acceptance

  What the scanner accepts: exactly the sequences of values of the profile within
  its limits.

  * `run_sound` — a scan that returns has cut off values, and is in the middle of
    the next one.
  * `run_complete` — a scan over values within the limits returns.
  * `assertMessagePackFrameLimits_iff` — the two together.
-/
import PipeX.Core.FrameLimits.ScanView

namespace PipeX.FrameLimits

open Chunked

/-- Where values that follow one another from `offset` on end. -/
def ends (offset : Nat) : List Bytes → List Nat
  | [] => []
  | v :: vs => (offset + v.length) :: ends (offset + v.length) vs

@[simp] theorem ends_length (offset : Nat) (vs : List Bytes) :
    (ends offset vs).length = vs.length := by
  induction vs generalizing offset with
  | nil => rfl
  | cons v vs ih => rw [ends, List.length_cons, ih, List.length_cons]

theorem ends_add (offset n : Nat) (vs : List Bytes) :
    ends (offset + n) vs = (ends offset vs).map (· + n) := by
  induction vs generalizing offset with
  | nil => rfl
  | cons v vs ih =>
    rw [ends, ends, List.map_cons, Nat.add_right_comm, ih]

namespace MessagePackFrameScanner

variable (maxFrameBytes maxFrames : Nat)

/-! ## In the middle of a frame -/

/-- `part` has been read of the current frame. -/
structure Between (part : Bytes) (s : MessagePackFrameScanner) : Prop where
  shaped : s.Shaped
  reaches : (Residual.values 1).reach part = some s.view
  incomplete : s.view ≠ .values 0
  bytes : s.frameBytes = part.length
  fits : part.length ≤ maxFrameBytes

theorem between_new : Between maxFrameBytes [] new :=
  ⟨(Clear.mk rfl rfl rfl).shaped, rfl, by decide, rfl, Nat.zero_le _⟩

variable {maxFrameBytes maxFrames}

/-- The scanner behind a complete frame. -/
def closed (s : MessagePackFrameScanner) : MessagePackFrameScanner :=
  { s with
    frames := s.frames + 1
    frameBytes := 0
    remainingValues := 1
    extensionTypePending := false }

theorem completeIfReady_incomplete {s : ScanState} (h : s.scanner.view ≠ .values 0) :
    completeIfReady maxFrames s = pure s := by
  rw [Ne, view_eq_values_zero_iff, not_not] at h
  rw [completeIfReady, if_pos h]

theorem completeIfReady_refused {s : ScanState} (h : s.scanner.view = .values 0)
    (hframes : maxFrames < s.scanner.frames + 1) :
    ∃ e, completeIfReady maxFrames s = Emit.fail e := by
  rw [view_eq_values_zero_iff] at h
  rw [completeIfReady, if_neg h, if_pos hframes]
  exact ⟨_, rfl⟩

theorem completeIfReady_complete {s : ScanState} (h : s.scanner.view = .values 0)
    (hframes : s.scanner.frames + 1 ≤ maxFrames) :
    completeIfReady maxFrames s = ⟨[s.offset], .ok ⟨closed s.scanner, s.offset⟩⟩ := by
  rw [view_eq_values_zero_iff] at h
  rw [completeIfReady, if_neg h, if_neg (Nat.not_lt.mpr hframes)]
  rfl

theorem between_closed {s : MessagePackFrameScanner} (h : s.view = .values 0) :
    Between maxFrameBytes [] (closed s) := by
  rw [view_eq_values_zero_iff] at h
  simp only [not_or, Bool.not_eq_true, Option.isSome_eq_false_iff, Option.isNone_iff_eq_none,
    Nat.not_lt, gt_iff_lt, Nat.le_zero] at h
  obtain ⟨hpending, hpayload, -⟩ := h
  have hclear : (closed s).Clear := ⟨hpayload, rfl, hpending⟩
  refine ⟨hclear.shaped, ?_, ?_, rfl, Nat.zero_le _⟩
  · rw [hclear.view]
    rfl
  · rw [hclear.view]
    simp [closed]

/-- No value ends within the part of it that has been read. -/
theorem Between.length_lt {part v q : Bytes} {s : MessagePackFrameScanner}
    (h : Between maxFrameBytes part s) (hv : IsValue v) (hfront : v <+: part ++ q) :
    part.length < v.length := by
  by_contra hle
  obtain ⟨e, rfl⟩ :=
    List.prefix_of_prefix_length_le hfront (List.prefix_append part q) (Nat.not_lt.mp hle)
  have hreaches := h.reaches
  rw [Residual.reach_append] at hreaches
  obtain ⟨r, hreach, he⟩ := Option.bind_eq_some_iff.mp hreaches
  rw [reach_isValue hv hreach] at he
  cases e with
  | nil =>
    rw [Residual.reach, Option.some.injEq] at he
    exact h.incomplete he.symm
  | cons b e => cases he

/-! ## One byte -/

/-- A byte that is taken either continues the frame or completes a value. -/
theorem run_byte {part : Bytes} {s t : ScanState} {b : UInt8}
    (h : Between maxFrameBytes part s.scanner)
    (hrun : ((scanLoop maxFrameBytes maxFrames).run s [b]).result = .ok t) :
    t.offset = s.offset + 1 ∧
      ((Between maxFrameBytes (part ++ [b]) t.scanner ∧ t.scanner.frames = s.scanner.frames ∧
          ((scanLoop maxFrameBytes maxFrames).run s [b]).out = []) ∨
        (IsValue (part ++ [b]) ∧ (part ++ [b]).length ≤ maxFrameBytes ∧
          Between maxFrameBytes [] t.scanner ∧ t.scanner.frames = s.scanner.frames + 1 ∧
          t.scanner.frames ≤ maxFrames ∧
          ((scanLoop maxFrameBytes maxFrames).run s [b]).out = [s.offset + 1])) := by
  have hlen : (part ++ [b]).length = part.length + 1 := List.length_append
  rw [run_singleton] at hrun ⊢
  -- the scanner follows the grammar over this byte
  have hreaches := advance_reaches maxFrameBytes h.shaped b
  cases hadvance : s.scanner.advance maxFrameBytes b with
  | error e =>
    rw [hadvance] at hrun
    cases hrun
  | ok s' =>
    have hfits := advance_le maxFrameBytes hadvance
    rw [hadvance] at hreaches hrun
    rw [h.bytes] at hreaches hfits
    rw [Emit.ofExcept_ok, pure_bind] at hrun ⊢
    obtain ⟨hshaped, hview, hbytes, hframes⟩ | - := hreaches
    have hreach := Residual.reach_snoc h.reaches hview
    -- a value has ended if nothing more is expected
    by_cases hcomplete : s'.view = .values 0
    · by_cases hcount : s'.frames + 1 ≤ maxFrames
      · rw [completeIfReady_complete hcomplete hcount] at hrun ⊢
        cases hrun
        have hvalue : IsValue (part ++ [b]) := by
          rw [← List.append_nil (part ++ [b]), isValue_append_iff hreach, hcomplete]
          exact values_zero_iff.mpr rfl
        refine ⟨rfl, .inr ⟨hvalue, by omega, between_closed hcomplete, ?_, hcount, rfl⟩⟩
        rw [← hframes]
        rfl
      · -- one frame too many ends the run
        obtain ⟨e, he⟩ := @completeIfReady_refused maxFrames ⟨s', s.offset + 1⟩ hcomplete
          (Nat.lt_of_not_le hcount)
        rw [he] at hrun
        cases hrun
    · rw [completeIfReady_incomplete hcomplete] at hrun ⊢
      cases hrun
      exact ⟨rfl, .inl ⟨⟨hshaped, hreach, hcomplete, by rw [hbytes, hlen], by omega⟩, hframes, rfl⟩⟩

/-- A byte that a value within the limits goes on with is taken. -/
theorem run_byte_complete {part q : Bytes} {s : ScanState} {b : UInt8}
    (h : Between maxFrameBytes part s.scanner) (hvalue : IsValue (part ++ b :: q))
    (hfits : (part ++ b :: q).length ≤ maxFrameBytes) (hsafe : q.length ≤ maxSafeInteger)
    (hframes : s.scanner.frames + 1 ≤ maxFrames) :
    ∃ t, ((scanLoop maxFrameBytes maxFrames).run s [b]).result = .ok t := by
  rw [run_singleton]
  rw [isValue_append_iff h.reaches] at hvalue
  obtain ⟨r, hstep, hq⟩ := (Residual.rest_cons (view_proper h.shaped)).mp hvalue
  have hreaches := advance_reaches maxFrameBytes h.shaped b
  cases hadvance : s.scanner.advance maxFrameBytes b with
  | error e =>
    rw [hadvance] at hreaches
    obtain - | hrefuses := hreaches
    have hmin := Residual.minimum_le_length hq
    have hlen : (part ++ b :: q).length = part.length + (q.length + 1) := List.length_append
    have := hrefuses r hstep
    rw [h.bytes] at this
    omega
  | ok s' =>
    rw [hadvance] at hreaches
    obtain ⟨-, -, -, hcount⟩ | - := hreaches
    rw [Emit.ofExcept_ok, pure_bind]
    by_cases hcomplete : s'.view = .values 0
    · rw [completeIfReady_complete hcomplete (by dsimp only; omega)]
      exact ⟨_, rfl⟩
    · rw [completeIfReady_incomplete hcomplete]
      exact ⟨_, rfl⟩

/-! ## A run -/

/-- What a scan has cut off are values, and where it cut is where they end. -/
theorem run_sound {part q : Bytes} {s t : ScanState}
    (h : Between maxFrameBytes part s.scanner) (hframes : s.scanner.frames ≤ maxFrames)
    (hrun : ((scanLoop maxFrameBytes maxFrames).run s q).result = .ok t) :
    ∃ vs rest, part ++ q = vs.flatten ++ rest ∧
      (∀ v ∈ vs, IsValue v ∧ v.length ≤ maxFrameBytes) ∧
      Between maxFrameBytes rest t.scanner ∧ t.scanner.frames = s.scanner.frames + vs.length ∧
      t.scanner.frames ≤ maxFrames ∧
      ((scanLoop maxFrameBytes maxFrames).run s q).out.map (· + part.length) =
        ends s.offset vs := by
  -- one byte after another; `part` is what has been read of the current value
  induction q generalizing part s with
  | nil =>
    cases hrun
    exact ⟨[], part, by simp, by simp, h, rfl, hframes, rfl⟩
  | cons b q ih =>
    rw [← List.singleton_append, (scanLoop_splits maxFrameBytes maxFrames).run_append] at hrun ⊢
    obtain ⟨s₁, hbyte, hrest, hout⟩ := Emit.bind_eq_ok hrun
    rw [hout]
    obtain ⟨hoffset, ⟨hbetween, hsame, hout₁⟩ | ⟨hvalue, hfits, hbetween, hmore, hcount, hout₁⟩⟩ :=
      run_byte h hbyte
    · -- the byte belongs to the value that has begun
      obtain ⟨vs, rest, heq, hvs, hbetween', hframes', hcount', hends⟩ :=
        ih hbetween (by omega) hrest
      refine ⟨vs, rest, by rw [← heq]; simp, hvs, hbetween', by omega, hcount', ?_⟩
      rw [hoffset, ends_add] at hends
      rw [hout₁, List.nil_append]
      refine List.map_injective_iff.mpr (add_left_injective 1) ?_
      rw [← hends, List.map_map]
      refine List.map_congr_left fun n _ => ?_
      simp only [Function.comp_apply, List.length_append, List.length_singleton]
      omega
    · obtain ⟨vs, rest, heq, hvs, hbetween', hframes', hcount', hends⟩ :=
        ih hbetween hcount hrest
      -- the byte ends the value, and the next one begins with nothing
      refine ⟨(part ++ [b]) :: vs, rest, ?_, ?_, hbetween', ?_, hcount', ?_⟩
      · rw [List.flatten_cons, List.append_assoc, ← heq]
        simp
      · intro v hv
        rcases List.mem_cons.mp hv with rfl | hv
        · exact ⟨hvalue, hfits⟩
        · exact hvs v hv
      · rw [hframes', hmore, List.length_cons]
        omega
      · have hlen : (part ++ [b]).length = part.length + 1 := List.length_append
        have hends' : ((scanLoop maxFrameBytes maxFrames).run s₁ q).out = ends (s.offset + 1) vs := by
          rw [← hoffset, ← hends]
          simp
        rw [hout₁, List.map_append, hends', ends, hlen, ← ends_add]
        simp only [List.map_cons, List.map_nil, List.singleton_append, List.cons.injEq]
        refine ⟨by omega, ?_⟩
        congr 1
        omega

/-- What makes a value of the current frame is taken to its end. -/
theorem run_value {part e : Bytes} {s : ScanState} (h : Between maxFrameBytes part s.scanner)
    (hvalue : IsValue (part ++ e)) (hfits : (part ++ e).length ≤ maxFrameBytes)
    (hsafe : e.length ≤ maxSafeInteger) (hframes : s.scanner.frames + 1 ≤ maxFrames) :
    ∃ t, ((scanLoop maxFrameBytes maxFrames).run s e).result = .ok t ∧
      Between maxFrameBytes [] t.scanner ∧ t.scanner.frames = s.scanner.frames + 1 := by
  induction e generalizing part s with
  | nil =>
    rw [isValue_append_iff h.reaches, Residual.rest_nil (view_proper h.shaped)] at hvalue
    exact absurd hvalue h.incomplete
  | cons b e ih =>
    rw [List.length_cons] at hsafe
    rw [← List.singleton_append, (scanLoop_splits maxFrameBytes maxFrames).run_append]
    obtain ⟨s₁, hbyte⟩ := run_byte_complete h hvalue hfits (by omega) hframes
    have heq : part ++ b :: e = (part ++ [b]) ++ e := by simp
    rw [heq] at hvalue hfits
    rw [Emit.bind_ok hbyte]
    obtain ⟨-, ⟨hbetween, hsame, -⟩ | ⟨hvalue', -, hbetween, hmore, -, -⟩⟩ := run_byte h hbyte
    · obtain ⟨t, ht, hbetween', hframes'⟩ := ih hbetween hvalue hfits (by omega) (by omega)
      exact ⟨t, ht, hbetween', by omega⟩
    · have hnil : e = [] := by
        have := isValue_prefix_eq hvalue' hvalue (List.prefix_append _ _)
        exact List.append_right_eq_self.mp this.symm
      subst hnil
      exact ⟨s₁, rfl, hbetween, hmore⟩

/-- Values within the limits are taken. -/
theorem run_complete {vs : List Bytes} {s : ScanState} (h : Between maxFrameBytes [] s.scanner)
    (hvs : ∀ v ∈ vs, IsValue v ∧ v.length ≤ maxFrameBytes)
    (hsafe : vs.flatten.length ≤ maxSafeInteger)
    (hframes : s.scanner.frames + vs.length ≤ maxFrames) :
    ∃ t, ((scanLoop maxFrameBytes maxFrames).run s vs.flatten).result = .ok t ∧
      Between maxFrameBytes [] t.scanner ∧ t.scanner.frames = s.scanner.frames + vs.length := by
  induction vs generalizing s with
  | nil => exact ⟨s, rfl, h, rfl⟩
  | cons v vs ih =>
    rw [List.flatten_cons, List.length_append] at hsafe
    rw [List.length_cons] at hframes ⊢
    obtain ⟨hvalue, hfits⟩ := hvs v (by simp)
    have hmore : s.scanner.frames + 1 ≤ maxFrames := by omega
    obtain ⟨s₁, hs₁, hbetween, hcount⟩ := run_value h hvalue hfits (by omega) hmore
    have hvs' : ∀ w ∈ vs, IsValue w ∧ w.length ≤ maxFrameBytes := fun w hw => hvs w (by simp [hw])
    obtain ⟨t, ht, hbetween', hcount'⟩ := ih hbetween hvs' (by omega) (by omega)
    rw [List.flatten_cons, (scanLoop_splits maxFrameBytes maxFrames).run_append, Emit.bind_ok hs₁]
    exact ⟨t, ht, hbetween', by omega⟩

/-! ## The end of the input -/

theorem finish_iff {part : Bytes} {s : MessagePackFrameScanner} (h : Between maxFrameBytes part s) :
    s.finish = .ok () ↔ part = [] := by
  constructor
  · intro hfinish
    by_contra hpart
    have hbytes : s.frameBytes ≠ 0 := by
      rw [h.bytes]
      exact fun hlen => hpart (List.length_eq_zero_iff.mp hlen)
    rw [finish, if_pos (.inl hbytes)] at hfinish
    cases hfinish
  · rintro rfl
    have hview : s.view = .values 1 := by
      have hreaches := h.reaches
      rw [Residual.reach, Option.some.injEq] at hreaches
      exact hreaches.symm
    obtain ⟨hpayload, hpending⟩ := view_eq_values hview
    have hbytes : s.frameBytes = 0 := h.bytes
    rw [finish, if_neg (by simp [hbytes, hpayload, hpending])]

end MessagePackFrameScanner

open MessagePackFrameScanner

theorem assertMessagePackFrameLimits_eq_ok {input : Bytes} {maxFrameBytes maxFrames n : Nat} :
    assertMessagePackFrameLimits input maxFrameBytes maxFrames = .ok n ↔
      ∃ t, ((scanLoop maxFrameBytes maxFrames).run ⟨new, 0⟩ input).result = .ok t ∧
        t.scanner.finish = .ok () ∧
        ((scanLoop maxFrameBytes maxFrames).run ⟨new, 0⟩ input).out.length = n := by
  simp only [assertMessagePackFrameLimits, scan]
  cases hrun : ((scanLoop maxFrameBytes maxFrames).run ⟨new, 0⟩ input).result with
  | error e =>
    constructor
    · intro h
      cases h
    · rintro ⟨t, ht, -⟩
      cases ht
  | ok t =>
    simp only [Except.map, bind, Except.bind, Except.ok.injEq, exists_eq_left']
    cases hfinish : t.scanner.finish with
    | error e => simp
    | ok u => simp [pure, Except.pure]

/-- The scanner accepts exactly the profile within its limits. -/
theorem assertMessagePackFrameLimits_iff (b : Buffer) (maxFrameBytes maxFrames n : Nat) :
    assertMessagePackFrameLimits b.val maxFrameBytes maxFrames = .ok n ↔
      n ≤ maxFrames ∧ ∃ vs : List Bytes, vs.length = n ∧
        (∀ v ∈ vs, IsValue v ∧ v.length ≤ maxFrameBytes) ∧ b.val = vs.flatten := by
  have hnew := between_new maxFrameBytes
  rw [assertMessagePackFrameLimits_eq_ok]
  constructor
  · rintro ⟨t, hrun, hfinish, hn⟩
    obtain ⟨vs, rest, heq, hvs, hbetween, hframes, hcount, hends⟩ :=
      @run_sound maxFrameBytes maxFrames [] b.val ⟨new, 0⟩ t hnew (Nat.zero_le _) hrun
    have hlen := congrArg List.length hends
    rw [List.length_map, ends_length, hn] at hlen
    rw [(finish_iff hbetween).mp hfinish, List.nil_append, List.append_nil] at heq
    have hframes : t.scanner.frames = 0 + vs.length := hframes
    exact ⟨by omega, vs, hlen.symm, hvs, heq⟩
  · rintro ⟨hn, vs, rfl, hvs, hb⟩
    have hsafe := b.property
    rw [hb] at hsafe ⊢
    have hframes : (new : MessagePackFrameScanner).frames + vs.length ≤ maxFrames := by
      rw [show new.frames = 0 from rfl, Nat.zero_add]
      exact hn
    obtain ⟨t, hrun, hbetween, hcount⟩ :=
      @run_complete maxFrameBytes maxFrames vs ⟨new, 0⟩ hnew hvs hsafe hframes
    refine ⟨t, hrun, (finish_iff hbetween).mpr rfl, ?_⟩
    -- the scanner has counted a frame for every boundary
    obtain ⟨ws, -, -, -, -, hcount', -, hends⟩ :=
      @run_sound maxFrameBytes maxFrames [] vs.flatten ⟨new, 0⟩ t hnew (Nat.zero_le _) hrun
    have hlen := congrArg List.length hends
    rw [List.length_map, ends_length] at hlen
    omega

end PipeX.FrameLimits
