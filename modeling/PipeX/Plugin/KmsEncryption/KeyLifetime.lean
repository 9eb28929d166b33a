/-
  PipeX.Plugin.KmsEncryption.KeyLifetime

  The data key of one call of `process` or `reverse`, from its delivery to its
  wiping.

  `ProviderCall` is such a call, by what stands in front of the provider and what
  follows it, and `calls` is its machine: an event is one uninterrupted stretch of
  code, so that the abort, the deadline and the provider may come in between any
  two of them.  A promise that settles and the reaction to it are two events.

  Sources: `abortable`, `providerControl` and `callProvider` of
  `src/plugin/kms_encryption.ts`, and the `finally` blocks of `process` and
  `reverse`.
-/
import PipeX.Lib.Transition
import PipeX.Plugin.KmsEncryption.Envelope

namespace PipeX.KmsEncryption

open Transition

/-! ## Calls -/

inductive AbortReason where
  | abort
  /-- `signal.reason.name === 'TimeoutError'` -/
  | timeout
deriving DecidableEq, Repr

def abortError : AbortReason → JsError
  | .abort => operationAbortedError
  | .timeout => operationTimeoutError

/-- A call of the plugin, whose provider delivers an `α`. -/
structure ProviderCall (α : Type) where
  operation : KmsOperation
  /-- the checks in front of the provider -/
  precheck : Except JsError Unit
  /-- `context.signal` is there -/
  hasSignal : Bool
  /-- `timeoutMs !== 0` -/
  hasDeadline : Bool
  /-- the plaintext key in what is delivered, if it is a `Buffer` -/
  keyOf : α → Option Bytes
  /-- the `try` block behind the provider -/
  body : α → Except JsError Bytes

/-- The test of `providerControl` for a timer; the argument is `context.limits`. -/
def hasDeadline (limits : Option EngineLimits) : Bool :=
  decide ((limits.map (·.operationTimeoutMs)).getD defaultLimits.operationTimeoutMs ≠ 0)

/-- `process(data, ctx)`. -/
def processCall (cipher : KmsCipher) (plugin : KmsEncryptionPlugin) (iv : Iv) (data : Bytes)
    (limits : Option EngineLimits) (hasSignal : Bool) : ProviderCall DataKey where
  operation := .generateDataKey
  precheck := do
    checkProcess plugin data limits
    assertKmsOperation plugin.kms .generateDataKey
    checkTimeout limits
  hasSignal := hasSignal
  hasDeadline := hasDeadline limits
  keyOf := DataKey.plaintext
  body keyResult := (sealEnvelope cipher keyResult iv data limits).map Envelope.bytes

/-- `reverse(data, ctx)`. -/
def reverseCall (cipher : KmsCipher) (plugin : KmsEncryptionPlugin) (data : Bytes)
    (limits : Option EngineLimits) (hasSignal : Bool) : ProviderCall (Option Bytes) where
  operation := .decrypt
  precheck := do
    let _ ← parse plugin data limits
    assertKmsOperation plugin.kms .decrypt
    checkTimeout limits
  hasSignal := hasSignal
  hasDeadline := hasDeadline limits
  keyOf := id
  body plaintext := parse plugin data limits >>= openEnvelope cipher plaintext

/-! ## State -/

/-- The promise of the provider. -/
inductive ProviderPromise (α : Type) where
  | none
  | pending
  | fulfilled (value : α)
  | rejected (reason : ProviderRejection)
deriving Repr

def ProviderPromise.settled {α : Type} : ProviderPromise α → Bool
  | .fulfilled _ => true
  | .rejected _ => true
  | _ => false

/-- The callback of `abortable` on that promise. -/
inductive Reaction where
  | unregistered
  /-- it goes on with the plugin call -/
  | waiting
  /-- the call has gone on without it: `disposeLate` -/
  | late
  | done
deriving DecidableEq, Repr

inductive Phase (α : Type) where
  | notCalled
  /-- inside of `invoke` -/
  | invoking
  | waiting
  | failing (reason : ProviderRejection)
  | returning (value : α)
  | settled
deriving Repr

structure KeyState (α : Type) where
  phase : Phase α
  /-- the signal of the caller -/
  caller : Option AbortReason
  /-- `control.signal` -/
  control : Option AbortReason
  timer : Bool
  promise : ProviderPromise α
  reaction : Reaction
  /-- the bytes that the delivered key `Buffer` holds by now -/
  key : Option Bytes
  /-- the settlements of the plugin call -/
  settlements : List (Except JsError Bytes)

def KeyState.start (α : Type) : KeyState α where
  phase := .notCalled
  caller := none
  control := none
  timer := false
  promise := .none
  reaction := .unregistered
  key := none
  settlements := []

/-! ## Events -/

inductive Event (α : Type) where
  | call
  | invokeThrows (reason : ProviderRejection)
  | invokeReturns
  | fulfill (value : α)
  | reject (reason : ProviderRejection)
  | react
  /-- the plugin call goes on to its end -/
  | finish
  | abort (reason : AbortReason)
  | passDeadline
deriving Repr

namespace KeyState

variable {α : Type} (c : ProviderCall α) (s : KeyState α)

/-- The plugin call settles, behind `control.cleanup()`. -/
def settle (result : Except JsError Bytes) : KeyState α :=
  { s with phase := .settled, timer := false, settlements := s.settlements ++ [result] }

/-- `plaintext.fill(0)`. -/
def wipe : KeyState α := { s with key := s.key.map fun key => List.replicate key.length 0 }

/-- `control.signal` aborts: `onAbort` runs if it is registered. -/
def abortControl (reason : AbortReason) : KeyState α :=
  match s.control with
  | some _ => s
  | none =>
    if s.reaction = .waiting then
      { s with control := some reason, reaction := .late, phase := .failing .operationAborted }
    else { s with control := some reason }

def step : Event α → KeyState α
  | .call =>
    match c.precheck with
    | .error e => s.settle (.error e)
    | .ok _ =>
      match (if c.hasSignal then s.caller else none) with
      | some reason => s.settle (.error (abortError reason))
      | none => { s with phase := .invoking, timer := c.hasDeadline }
  | .invokeThrows reason => { s with phase := .failing reason }
  | .invokeReturns =>
    if s.control.isSome then
      { s with promise := .pending, reaction := .late, phase := .failing .operationAborted }
    else { s with promise := .pending, reaction := .waiting, phase := .waiting }
  | .fulfill value => { s with promise := .fulfilled value, key := c.keyOf value }
  | .reject reason => { s with promise := .rejected reason }
  | .react =>
    match s.promise, s.reaction with
    | .fulfilled value, .waiting => { s with reaction := .done, phase := .returning value }
    | .rejected reason, .waiting => { s with reaction := .done, phase := .failing reason }
    | .fulfilled _, .late => { s.wipe with reaction := .done }
    | _, _ => { s with reaction := .done }
  | .finish =>
    match s.phase with
    | .failing reason =>
      s.settle (.error (match s.control with
        | some reason => abortError reason
        | none => sanitizeProviderError c.operation reason))
    | .returning value => s.wipe.settle (c.body value)
    | _ => s
  | .abort reason =>
    let s' := { s with caller := some reason }
    match s.phase with
    | .notCalled => s'
    | _ => if c.hasSignal then s'.abortControl reason else s'
  | .passDeadline => { s with timer := false }.abortControl .timeout

def enabled : Event α → Bool
  | .call => (s.phase matches .notCalled)
  | .invokeThrows _ => (s.phase matches .invoking)
  | .invokeReturns => (s.phase matches .invoking)
  | .fulfill _ => (s.promise matches .pending)
  | .reject _ => (s.promise matches .pending)
  | .react => s.promise.settled && decide (s.reaction = .waiting ∨ s.reaction = .late)
  | .finish => (s.phase matches .failing _ | .returning _)
  | .abort _ => s.caller.isNone
  | .passDeadline => s.timer

end KeyState

/-- The events of one call. -/
def calls {α : Type} (c : ProviderCall α) : Machine (KeyState α) (Event α) where
  enabled s event := s.enabled event = true
  step := KeyState.step c

instance {α : Type} (c : ProviderCall α) (s : KeyState α) (event : Event α) :
    Decidable ((calls c).enabled s event) :=
  inferInstanceAs (Decidable (s.enabled event = true))

/-! ## The invariant -/

/-- All zeros. -/
def Wiped (key : Bytes) : Prop := key = List.replicate key.length 0

/-- Who answers for the key: the reaction that is still to run, the plugin call that
    has been given it, or nobody any more. -/
structure Guarded {α : Type} (c : ProviderCall α) (s : KeyState α) : Prop where
  settled : s.phase = .settled → s.settlements.length = 1
  unsettled : s.phase ≠ .settled → s.settlements = []
  early : s.phase = .notCalled ∨ s.phase = .invoking → s.promise = .none ∧ s.reaction = .unregistered
  unregistered : s.reaction = .unregistered → s.promise = .none
  reacted : s.reaction = .done → s.promise.settled = true
  waiting : s.reaction = .waiting → s.phase = .waiting ∧ s.control = none
  registered : s.phase = .waiting → s.reaction = .waiting
  returning : ∀ v, s.phase = .returning v → s.promise = .fulfilled v ∧ s.reaction = .done
  delivered : ∀ v, s.promise = .fulfilled v →
    s.key.map List.length = (c.keyOf v).map List.length
  wiped : s.reaction = .done → (∀ v, s.phase ≠ .returning v) → ∀ v, s.promise = .fulfilled v →
    ∀ key, s.key = some key → Wiped key

section Steps

variable {α : Type} {c : ProviderCall α} {s : KeyState α}

theorem wiped_replicate (n : Nat) : Wiped (List.replicate n 0) := by
  rw [Wiped, List.length_replicate]

theorem wipe_key {key : Bytes} (h : s.wipe.key = some key) : Wiped key := by
  obtain ⟨key', -, rfl⟩ := Option.map_eq_some_iff.mp h
  exact wiped_replicate key'.length

theorem wipe_length : s.wipe.key.map List.length = s.key.map List.length := by
  rw [KeyState.wipe, Option.map_map]
  congr 1
  funext key
  exact List.length_replicate

/-- The call settles where nothing waits for the provider. -/
theorem guarded_settle (h : Guarded c s) (hphase : s.phase ≠ .settled)
    (hwaiting : s.reaction ≠ .waiting)
    (hwiped : s.reaction = .done → ∀ v, s.promise = .fulfilled v → ∀ key, s.key = some key →
      Wiped key) (result : Except JsError Bytes) : Guarded c (s.settle result) where
  settled _ := by
    show (s.settlements ++ [result]).length = 1
    rw [h.unsettled hphase]
    rfl
  unsettled hne := absurd rfl hne
  early := nofun
  unregistered := h.unregistered
  reacted := h.reacted
  waiting hreaction := absurd hreaction hwaiting
  registered := nofun
  returning := nofun
  delivered := h.delivered
  wiped hdone _ := hwiped hdone

theorem guarded_abortControl (h : Guarded c s) (reason : AbortReason) :
    Guarded c (s.abortControl reason) := by
  rw [KeyState.abortControl]
  split
  · exact h
  · split
    · -- the reaction changes sides: from now on it wipes what is delivered
      rename_i hreaction
      have hphase := (h.waiting hreaction).1
      have hunsettled := h.unsettled (by rw [hphase]; exact nofun)
      exact {
        settled := nofun
        unsettled := fun _ => hunsettled
        early := nofun
        unregistered := nofun
        reacted := nofun
        waiting := nofun
        registered := nofun
        returning := nofun
        delivered := h.delivered
        wiped := nofun }
    · rename_i hreaction
      exact {
        settled := h.settled
        unsettled := h.unsettled
        early := h.early
        unregistered := h.unregistered
        reacted := h.reacted
        waiting := fun heq => absurd heq hreaction
        registered := h.registered
        returning := h.returning
        delivered := h.delivered
        wiped := h.wiped }

theorem guarded_call (h : Guarded c s) (henabled : s.enabled .call = true) :
    Guarded c (s.step c .call) := by
  have hphase : s.phase = .notCalled := by
    cases hphase : s.phase <;> simp [KeyState.enabled, hphase] at henabled
    rfl
  obtain ⟨hpromise, hreaction⟩ := h.early (.inl hphase)
  -- a failed check and an aborted caller end the call before the provider is invoked
  have hsettle : ∀ result, Guarded c (s.settle result) := by
    intro result
    apply guarded_settle h
    · rw [hphase]
      exact nofun
    · rw [hreaction]
      exact nofun
    · intro hdone
      rw [hreaction] at hdone
      cases hdone
  simp only [KeyState.step]
  split
  · exact hsettle _
  · split
    · exact hsettle _
    · exact {
        settled := nofun
        unsettled := fun _ => h.unsettled (by rw [hphase]; exact nofun)
        early := fun _ => ⟨hpromise, hreaction⟩
        unregistered := h.unregistered
        reacted := h.reacted
        waiting := fun heq => by rw [show s.reaction = .waiting from heq] at hreaction; cases hreaction
        registered := nofun
        returning := nofun
        delivered := h.delivered
        wiped := fun heq => by rw [show s.reaction = .done from heq] at hreaction; cases hreaction }

theorem invoking_of_enabled (henabled : (s.phase matches .invoking) = true) :
    s.phase = .invoking := by
  cases hphase : s.phase <;> simp [hphase] at henabled
  rfl

theorem guarded_invokeThrows (h : Guarded c s) {reason : ProviderRejection}
    (henabled : s.enabled (.invokeThrows reason) = true) :
    Guarded c (s.step c (.invokeThrows reason)) := by
  have hphase := invoking_of_enabled henabled
  obtain ⟨hpromise, hreaction⟩ := h.early (.inr hphase)
  exact {
    settled := nofun
    unsettled := fun _ => h.unsettled (by rw [hphase]; exact nofun)
    early := nofun
    unregistered := h.unregistered
    reacted := h.reacted
    waiting := fun heq => by rw [show s.reaction = .waiting from heq] at hreaction; cases hreaction
    registered := nofun
    returning := nofun
    delivered := h.delivered
    wiped := fun heq => by rw [show s.reaction = .done from heq] at hreaction; cases hreaction }

theorem guarded_invokeReturns (h : Guarded c s) (henabled : s.enabled .invokeReturns = true) :
    Guarded c (s.step c .invokeReturns) := by
  have hphase := invoking_of_enabled henabled
  have hunsettled := h.unsettled (by rw [hphase]; exact nofun)
  simp only [KeyState.step]
  split
  -- aborted in the meantime: the promise gets the reaction that wipes
  · exact {
      settled := nofun
      unsettled := fun _ => hunsettled
      early := nofun
      unregistered := nofun
      reacted := nofun
      waiting := nofun
      registered := nofun
      returning := nofun
      delivered := nofun
      wiped := nofun }
  · rename_i hcontrol
    exact {
      settled := nofun
      unsettled := fun _ => hunsettled
      early := nofun
      unregistered := nofun
      reacted := nofun
      waiting := fun _ => ⟨rfl, Option.not_isSome_iff_eq_none.mp hcontrol⟩
      registered := fun _ => rfl
      returning := nofun
      delivered := nofun
      wiped := nofun }

theorem pending_of_enabled (henabled : (s.promise matches .pending) = true) :
    s.promise = .pending := by
  cases hpromise : s.promise <;> simp [hpromise] at henabled
  rfl

/-- While the provider is pending, no reaction to it has run. -/
theorem Guarded.not_done (h : Guarded c s) (hpromise : s.promise = .pending) :
    s.reaction ≠ .done := by
  intro hdone
  have hsettled := h.reacted hdone
  rw [hpromise] at hsettled
  cases hsettled

theorem guarded_fulfill (h : Guarded c s) (hpromise : s.promise = .pending) (v : α) :
    Guarded c (s.step c (.fulfill v)) where
  settled := h.settled
  unsettled := h.unsettled
  -- before the provider has returned there is no promise to fulfil
  early hearly := by
    obtain ⟨hnone, -⟩ := h.early hearly
    rw [hpromise] at hnone
    cases hnone
  unregistered hreaction := by
    have hnone := h.unregistered hreaction
    rw [hpromise] at hnone
    cases hnone
  waiting := h.waiting
  registered := h.registered
  returning v' hphase := absurd (h.returning v' hphase).2 (h.not_done hpromise)
  delivered v' heq := by
    cases heq
    rfl
  reacted _ := rfl
  wiped hdone := absurd hdone (h.not_done hpromise)

theorem guarded_reject (h : Guarded c s) (hpromise : s.promise = .pending)
    (reason : ProviderRejection) : Guarded c (s.step c (.reject reason)) where
  settled := h.settled
  unsettled := h.unsettled
  early hearly := by
    obtain ⟨hnone, -⟩ := h.early hearly
    rw [hpromise] at hnone
    cases hnone
  unregistered hreaction := by
    have hnone := h.unregistered hreaction
    rw [hpromise] at hnone
    cases hnone
  waiting := h.waiting
  registered := h.registered
  returning v hphase := absurd (h.returning v hphase).2 (h.not_done hpromise)
  delivered := nofun
  reacted _ := rfl
  wiped hdone := absurd hdone (h.not_done hpromise)

/-- The value goes to the plugin call, which answers for it from now on. -/
theorem guarded_takeValue (h : Guarded c s) {v : α} (hpromise : s.promise = .fulfilled v)
    (hreaction : s.reaction = .waiting) : Guarded c (s.step c .react) := by
  have hphase := (h.waiting hreaction).1
  have hunsettled := h.unsettled (by rw [hphase]; exact nofun)
  simp only [KeyState.step, hpromise, hreaction]
  exact {
    settled := nofun
    unsettled := fun _ => hunsettled
    early := nofun
    unregistered := nofun
    reacted := fun _ => rfl
    waiting := nofun
    registered := nofun
    returning := fun v' heq => ⟨by cases heq; rfl, rfl⟩
    delivered := fun v' heq => h.delivered v' (hpromise.trans heq)
    wiped := fun _ hne => absurd rfl (hne v) }

/-- One that comes too late for the call is wiped. -/
theorem guarded_disposeLate (h : Guarded c s) {v : α} (hpromise : s.promise = .fulfilled v)
    (hreaction : s.reaction = .late) : Guarded c (s.step c .react) := by
  have hsettled : s.promise.settled = true := by
    rw [hpromise]
    rfl
  simp only [KeyState.step, hpromise, hreaction]
  exact {
    settled := h.settled
    unsettled := h.unsettled
    early := fun hearly => by
      have hnone := (h.early hearly).1
      rw [hpromise] at hnone
      cases hnone
    unregistered := nofun
    reacted := fun _ => hsettled
    waiting := nofun
    registered := fun hphase => by
      have hwaiting := h.registered hphase
      rw [hreaction] at hwaiting
      cases hwaiting
    returning := fun v' hphase => ⟨hpromise ▸ (h.returning v' hphase).1, rfl⟩
    delivered := fun v' heq => wipe_length.trans (h.delivered v' heq)
    wiped := fun _ _ _ _ key hkey => wipe_key hkey }

/-- A rejection brings no key, to the call -/
theorem guarded_takeRejection (h : Guarded c s) {reason : ProviderRejection}
    (hpromise : s.promise = .rejected reason) (hreaction : s.reaction = .waiting) :
    Guarded c (s.step c .react) := by
  have hphase := (h.waiting hreaction).1
  have hunsettled := h.unsettled (by rw [hphase]; exact nofun)
  simp only [KeyState.step, hpromise, hreaction]
  exact {
    settled := nofun
    unsettled := fun _ => hunsettled
    early := nofun
    unregistered := nofun
    reacted := fun _ => rfl
    waiting := nofun
    registered := nofun
    returning := nofun
    delivered := nofun
    wiped := nofun }

/-- and behind it. -/
theorem guarded_ignoreRejection (h : Guarded c s) {reason : ProviderRejection}
    (hpromise : s.promise = .rejected reason) (hreaction : s.reaction = .late) :
    Guarded c (s.step c .react) := by
  simp only [KeyState.step, hpromise, hreaction]
  exact {
    settled := h.settled
    unsettled := h.unsettled
    early := fun hearly => by
      have hnone := (h.early hearly).1
      rw [hpromise] at hnone
      cases hnone
    unregistered := nofun
    reacted := fun _ => rfl
    waiting := nofun
    registered := fun hphase => by
      have hwaiting := h.registered hphase
      rw [hreaction] at hwaiting
      cases hwaiting
    returning := fun v hphase => ⟨hpromise ▸ (h.returning v hphase).1, rfl⟩
    delivered := nofun
    wiped := nofun }

theorem guarded_react (h : Guarded c s) (henabled : s.enabled .react = true) :
    Guarded c (s.step c .react) := by
  obtain ⟨hsettled, hreaction⟩ := Bool.and_eq_true_iff.mp henabled
  have hreaction := of_decide_eq_true hreaction
  cases hpromise : s.promise with
  | none =>
    rw [hpromise] at hsettled
    cases hsettled
  | pending =>
    rw [hpromise] at hsettled
    cases hsettled
  | fulfilled v =>
    rcases hreaction with hwaiting | hlate
    · exact guarded_takeValue h hpromise hwaiting
    · exact guarded_disposeLate h hpromise hlate
  | rejected reason =>
    rcases hreaction with hwaiting | hlate
    · exact guarded_takeRejection h hpromise hwaiting
    · exact guarded_ignoreRejection h hpromise hlate

theorem guarded_finish (h : Guarded c s) (henabled : s.enabled .finish = true) :
    Guarded c (s.step c .finish) := by
  have hnot : s.reaction = .waiting → s.phase = .waiting := fun hreaction => (h.waiting hreaction).1
  cases hphase : s.phase with
  | failing reason =>
    simp only [KeyState.step, hphase]
    apply guarded_settle h
    · rw [hphase]
      exact nofun
    · intro hreaction
      rw [hnot hreaction] at hphase
      cases hphase
    · intro hdone
      apply h.wiped hdone
      intro v
      rw [hphase]
      exact nofun
  | returning v =>
    simp only [KeyState.step, hphase]
    obtain ⟨hpromise, hdone⟩ := h.returning v hphase
    -- wiping first changes nothing that the invariant asks for
    have hwipe : Guarded c s.wipe := {
      settled := h.settled
      unsettled := h.unsettled
      early := h.early
      unregistered := h.unregistered
      reacted := h.reacted
      waiting := h.waiting
      registered := h.registered
      returning := h.returning
      delivered := fun v' heq => wipe_length.trans (h.delivered v' heq)
      wiped := fun _ _ _ _ key hkey => wipe_key hkey }
    apply guarded_settle hwipe
    · show s.phase ≠ .settled
      rw [hphase]
      exact nofun
    · show s.reaction ≠ .waiting
      rw [hdone]
      exact nofun
    · exact fun _ _ _ key hkey => wipe_key hkey
  | _ =>
    simp only [KeyState.enabled, hphase] at henabled
    cases henabled

/-- What only touches the signals and the timer keeps the invariant. -/
theorem guarded_signals (h : Guarded c s) (caller : Option AbortReason) (timer : Bool) :
    Guarded c { s with caller := caller, timer := timer } :=
  ⟨h.settled, h.unsettled, h.early, h.unregistered, h.reacted, h.waiting, h.registered, h.returning,
    h.delivered, h.wiped⟩

theorem guarded_step {event : Event α} (h : Guarded c s) (henabled : s.enabled event = true) :
    Guarded c (s.step c event) := by
  cases event with
  | call => exact guarded_call h henabled
  | invokeThrows reason => exact guarded_invokeThrows h henabled
  | invokeReturns => exact guarded_invokeReturns h henabled
  | fulfill v =>
    have hpromise := pending_of_enabled henabled
    exact guarded_fulfill h hpromise v
  | reject reason =>
    have hpromise := pending_of_enabled henabled
    exact guarded_reject h hpromise reason
  | react => exact guarded_react h henabled
  | finish => exact guarded_finish h henabled
  | abort reason =>
    -- the listener of the caller aborts the control, if it is registered
    have hcaller := guarded_signals h (some reason) s.timer
    simp only [KeyState.step]
    split
    · exact hcaller
    · split
      · exact guarded_abortControl hcaller reason
      · exact hcaller
  | passDeadline =>
    exact guarded_abortControl (guarded_signals h s.caller false) .timeout

end Steps

/-- A call under way whose control has not been aborted: neither the signals nor the
    timer have changed, and what it waits for is a promise. -/
structure Unaborted {α : Type} (c : ProviderCall α) (s : KeyState α) : Prop where
  signals : s.phase = .invoking ∨ s.phase = .waiting → s.control = none →
    (c.hasSignal = true → s.caller = none) ∧ s.timer = c.hasDeadline
  invoked : s.phase = .waiting → s.promise ≠ .none

section UnabortedSteps

variable {α : Type} {c : ProviderCall α} {s : KeyState α}

theorem abortControl_control (reason : AbortReason) : (s.abortControl reason).control ≠ none := by
  cases hcontrol : s.control with
  | some old =>
    have heq : s.abortControl reason = s := by rw [KeyState.abortControl, hcontrol]
    rw [heq, hcontrol]
    exact nofun
  | none =>
    simp only [KeyState.abortControl, hcontrol]
    split <;> exact nofun

theorem abortControl_waiting {reason : AbortReason}
    (h : (s.abortControl reason).phase = .waiting) :
    s.phase = .waiting ∧ (s.abortControl reason).promise = s.promise := by
  rw [KeyState.abortControl] at h ⊢
  split at h
  · exact ⟨h, rfl⟩
  · split at h
    · cases h
    · rename_i hreaction
      rw [if_neg hreaction]
      exact ⟨h, rfl⟩

/-- An aborted control leaves nothing to say but about the promise. -/
theorem unaborted_abortControl (h : s.phase = .waiting → s.promise ≠ .none)
    (reason : AbortReason) : Unaborted c (s.abortControl reason) where
  signals _ hcontrol := absurd hcontrol (abortControl_control reason)
  invoked hphase := by
    obtain ⟨hwaiting, hpromise⟩ := abortControl_waiting hphase
    rw [hpromise]
    exact h hwaiting

theorem unaborted_call : Unaborted c (s.step c .call) := by
  simp only [KeyState.step]
  split
  · exact ⟨nofun, nofun⟩
  · split
    · exact ⟨nofun, nofun⟩
    · rename_i hcaller
      refine ⟨fun _ _ => ⟨fun hsignal => ?_, rfl⟩, nofun⟩
      -- an aborted caller would have ended the call
      rwa [if_pos hsignal] at hcaller

theorem unaborted_react (h : Unaborted c s) : Unaborted c (s.step c .react) := by
  simp only [KeyState.step]
  split
  · exact ⟨nofun, nofun⟩
  · exact ⟨nofun, nofun⟩
  · exact ⟨h.signals, h.invoked⟩
  · exact ⟨h.signals, h.invoked⟩

theorem unaborted_abort (h : Unaborted c s) (reason : AbortReason) :
    Unaborted c (s.step c (.abort reason)) := by
  simp only [KeyState.step]
  split
  · rename_i hphase
    exact ⟨fun hopen => by simp [hphase] at hopen, fun hwaiting => by simp [hphase] at hwaiting⟩
  · split
    · exact @unaborted_abortControl α c { s with caller := some reason } h.invoked reason
    · -- the signal of the caller has not been handed on
      rename_i hsignal
      exact ⟨fun hopen hcontrol =>
        ⟨fun hhas => absurd hhas hsignal, (h.signals hopen hcontrol).2⟩, h.invoked⟩

theorem unaborted_step {event : Event α} (h : Unaborted c s) (henabled : s.enabled event = true) :
    Unaborted c (s.step c event) := by
  cases event with
  | call => exact unaborted_call
  | invokeThrows reason => exact ⟨nofun, nofun⟩
  | invokeReturns =>
    have hphase := invoking_of_enabled henabled
    simp only [KeyState.step]
    split
    · exact ⟨nofun, nofun⟩
    · exact ⟨fun _ => h.signals (.inl hphase), fun _ => nofun⟩
  | fulfill v => exact ⟨h.signals, fun _ => nofun⟩
  | reject reason => exact ⟨h.signals, fun _ => nofun⟩
  | react => exact unaborted_react h
  | finish =>
    simp only [KeyState.step]
    split
    · exact ⟨nofun, nofun⟩
    · exact ⟨nofun, nofun⟩
    · exact h
  | abort reason => exact unaborted_abort h reason
  | passDeadline => exact @unaborted_abortControl α c { s with timer := false } h.invoked .timeout

end UnabortedSteps

theorem unaborted_start {α : Type} (c : ProviderCall α) : Unaborted c (KeyState.start α) where
  signals := nofun
  invoked := nofun

theorem guarded_start {α : Type} (c : ProviderCall α) : Guarded c (KeyState.start α) where
  settled := nofun
  unsettled _ := rfl
  early _ := ⟨rfl, rfl⟩
  unregistered _ := rfl
  reacted := nofun
  waiting := nofun
  registered := nofun
  returning := nofun
  delivered := nofun
  wiped := nofun

/-! ## Any order of events -/

namespace KeyState

/-- Nothing but the provider, the abort or the deadline can come next. -/
def Quiet {α : Type} (s : KeyState α) : Prop :=
  s.enabled .call = false ∧ s.enabled .invokeReturns = false ∧ s.enabled .react = false ∧
    s.enabled .finish = false

/-- The call waits for a provider that has not settled, and neither the caller nor the
    deadline has told it to stop. -/
structure Awaits {α : Type} (c : ProviderCall α) (s : KeyState α) : Prop where
  phase : s.phase = .waiting
  promise : s.promise = .pending
  control : s.control = none
  caller : c.hasSignal = true → s.caller = none
  timer : s.timer = c.hasDeadline

/-- What is asked of the state behind any events. -/
structure Disciplined {α : Type} (c : ProviderCall α) (s : KeyState α) : Prop where
  once : s.settlements.length ≤ 1
  settles : s.Quiet → s.settlements.length = 1 ∨ s.Awaits c
  /-- both have settled, and the reaction to the provider has run -/
  wiped : ∀ v key, s.promise = .fulfilled v → c.keyOf v = some key → s.settlements ≠ [] →
    s.enabled .react = false → s.key = some (List.replicate key.length 0)

end KeyState

section Runs

variable {α : Type} {c : ProviderCall α} {s : KeyState α}

/-- A quiet call waits for the provider or has settled. -/
theorem phase_of_quiet (h : s.Quiet) : s.phase = .waiting ∨ s.phase = .settled := by
  obtain ⟨hcall, hinvoke, -, hfinish⟩ := h
  cases hphase : s.phase with
  | waiting => exact .inl rfl
  | settled => exact .inr rfl
  | notCalled => simp [KeyState.enabled, hphase] at hcall
  | invoking => simp [KeyState.enabled, hphase] at hinvoke
  | failing reason => simp [KeyState.enabled, hphase] at hfinish
  | returning v => simp [KeyState.enabled, hphase] at hfinish

/-- A settled provider has no reaction left. -/
theorem Guarded.done_of_settled (h : Guarded c s) (hsettled : s.promise.settled = true)
    (hreact : s.enabled .react = false) : s.reaction = .done := by
  simp only [KeyState.enabled, hsettled, Bool.true_and, decide_eq_false_iff_not, not_or] at hreact
  cases hreaction : s.reaction with
  | done => rfl
  | waiting => exact absurd hreaction hreact.1
  | late => exact absurd hreaction hreact.2
  | unregistered =>
    rw [h.unregistered hreaction] at hsettled
    cases hsettled

/-- A quiet call has settled, or awaits a provider that is still pending. -/
theorem Guarded.settles (h : Guarded c s) (hunaborted : Unaborted c s) (hquiet : s.Quiet) :
    s.settlements.length = 1 ∨ s.Awaits c := by
  rcases phase_of_quiet hquiet with hphase | hphase
  · have hreaction := h.registered hphase
    have hcontrol := (h.waiting hreaction).2
    obtain ⟨hcaller, htimer⟩ := hunaborted.signals (.inr hphase) hcontrol
    -- a provider that has settled would still have its reaction to run
    have hunsettled : s.promise.settled ≠ true := by
      intro hsettled
      rw [h.done_of_settled hsettled hquiet.2.2.1] at hreaction
      cases hreaction
    refine .inr ⟨hphase, ?_, hcontrol, hcaller, htimer⟩
    cases hpromise : s.promise with
    | pending => rfl
    | none => exact absurd hpromise (hunaborted.invoked hphase)
    | fulfilled v => exact absurd (by rw [hpromise]; rfl) hunsettled
    | rejected reason => exact absurd (by rw [hpromise]; rfl) hunsettled
  · exact .inl (h.settled hphase)

theorem disciplined_of_guarded (h : Guarded c s) (hunaborted : Unaborted c s) :
    KeyState.Disciplined c s := by
  have hcases : s.phase = .settled ∨ s.phase ≠ .settled := by
    cases s.phase with
    | settled => exact .inl rfl
    | _ => exact .inr nofun
  refine ⟨?_, h.settles hunaborted, ?_⟩
  · rcases hcases with hphase | hphase
    · rw [h.settled hphase]
    · rw [h.unsettled hphase]
      exact Nat.zero_le 1
  -- a delivered key has been wiped once the call has settled
  · intro v key hpromise hkey hsettlements hreact
    have hphase : s.phase = .settled := by
      rcases hcases with hphase | hphase
      · exact hphase
      · exact absurd (h.unsettled hphase) hsettlements
    have hsettled : s.promise.settled = true := by
      rw [hpromise]
      rfl
    have hlength := h.delivered v hpromise
    rw [hkey, Option.map_some] at hlength
    obtain ⟨key', hkey', hlength⟩ := Option.map_eq_some_iff.mp hlength
    have hwiped : Wiped key' := by
      apply h.wiped (h.done_of_settled hsettled hreact) _ v hpromise key' hkey'
      intro v'
      rw [hphase]
      exact nofun
    rw [hkey', hwiped, hlength]

end Runs

/-- Every state of every run of a call is disciplined. -/
def KeyDiscipline {α : Type} (c : ProviderCall α) : Prop :=
  ∀ events, (calls c).Legal (KeyState.start α) events →
    KeyState.Disciplined c ((calls c).run (KeyState.start α) events)

theorem keyDiscipline {α : Type} (c : ProviderCall α) : KeyDiscipline c := by
  intro events hlegal
  have hstep : ∀ s event, Guarded c s ∧ Unaborted c s → (calls c).enabled s event →
      Guarded c ((calls c).step s event) ∧ Unaborted c ((calls c).step s event) := by
    intro s event hs henabled
    exact ⟨guarded_step hs.1 henabled, unaborted_step hs.2 henabled⟩
  have hrun := Machine.invariant hstep ⟨guarded_start c, unaborted_start c⟩ hlegal
  exact disciplined_of_guarded hrun.1 hrun.2

/-- The key of `process` and of `reverse` is wiped whatever happens in whatever
    order, and either call settles once, unless it is left with nothing but a provider
    that does not settle. -/
theorem plaintextKeys_wiped (cipher : KmsCipher) (plugin : KmsEncryptionPlugin) (iv : Iv)
    (data : Bytes) (limits : Option EngineLimits) (hasSignal : Bool) :
    KeyDiscipline (processCall cipher plugin iv data limits hasSignal) ∧
      KeyDiscipline (reverseCall cipher plugin data limits hasSignal) :=
  ⟨keyDiscipline _, keyDiscipline _⟩

/-! ## Without an interruption -/

/-- A call that nothing interrupts comes to its body. -/
theorem run_uninterrupted {α : Type} {c : ProviderCall α} (hprecheck : c.precheck = .ok ())
    (v : α) :
    (calls c).Legal (KeyState.start α) [.call, .invokeReturns, .fulfill v, .react, .finish] ∧
      ((calls c).run (KeyState.start α)
        [.call, .invokeReturns, .fulfill v, .react, .finish]).settlements = [c.body v] := by
  -- no signal is aborted, so the provider is called
  have hcaller : (if c.hasSignal then (KeyState.start α).caller else none) = none := by
    split
    · rfl
    · rfl
  have hcall : (KeyState.start α).step c .call =
      { KeyState.start α with phase := .invoking, timer := c.hasDeadline } := by
    simp only [KeyState.step, hprecheck, hcaller]
  constructor
  · refine ⟨rfl, ?_⟩
    show (calls c).Along _ ((KeyState.start α).step c .call) _
    rw [hcall]
    exact ⟨rfl, rfl, rfl, rfl, trivial⟩
  · show ((calls c).run ((KeyState.start α).step c .call) _).settlements = _
    rw [hcall]
    rfl

/-- `process` is the body of its call behind the checks. -/
theorem process_eq (cipher : KmsCipher) (plugin : KmsEncryptionPlugin) (iv : Iv) (data : Bytes)
    (limits : Option EngineLimits) (hasSignal : Bool) {keyResult : DataKey}
    (hresolves : plugin.kms.generateDataKey plugin.keyId = .resolves keyResult) :
    process cipher plugin iv data limits =
      (processCall cipher plugin iv data limits hasSignal).precheck >>= fun _ =>
        (processCall cipher plugin iv data limits hasSignal).body keyResult := by
  unfold process processEnvelope callProvider
  rw [hresolves]
  simp only [processCall]
  -- the checks in the order of the code, and then the key
  cases checkProcess plugin data limits with
  | error e => rfl
  | ok _ =>
    cases assertKmsOperation plugin.kms .generateDataKey with
    | error e => rfl
    | ok _ =>
      cases checkTimeout limits with
      | error e => rfl
      | ok _ => rfl

/-- `reverse` is the body of its call behind the checks. -/
theorem reverse_eq (cipher : KmsCipher) (plugin : KmsEncryptionPlugin) (data : Bytes)
    (limits : Option EngineLimits) (hasSignal : Bool) {plaintext : Option Bytes}
    (hresolves : ∀ parts, parse plugin data limits = .ok parts →
      plugin.kms.decrypt parts.encryptedKey plugin.keyId = .resolves plaintext) :
    reverse cipher plugin data limits =
      (reverseCall cipher plugin data limits hasSignal).precheck >>= fun _ =>
        (reverseCall cipher plugin data limits hasSignal).body plaintext := by
  unfold reverse callProvider
  simp only [reverseCall]
  -- the envelope is parsed before the provider is looked at
  cases hparts : parse plugin data limits with
  | error e => rfl
  | ok parts =>
    simp only [bind, Except.bind, hresolves parts hparts]
    cases assertKmsOperation plugin.kms .decrypt with
    | error e => rfl
    | ok _ =>
      cases checkTimeout limits with
      | error e => rfl
      | ok _ => rfl

/-! ## A provider that never settles -/

/-- A call that waits, with nothing that could abort it. -/
structure Hanging {α : Type} (s : KeyState α) : Prop where
  phase : s.phase = .waiting
  promise : s.promise = .pending
  timer : s.timer = false
  settlements : s.settlements = []

/-- Only the provider can go on with such a call. -/
theorem hanging_step {α : Type} {c : ProviderCall α} (hsignal : c.hasSignal = false)
    {s : KeyState α} (h : Hanging s) {event : Event α} (henabled : s.enabled event = true)
    (hprovider : (∀ v, event ≠ .fulfill v) ∧ ∀ reason, event ≠ .reject reason) :
    Hanging (s.step c event) := by
  cases event with
  | fulfill v => exact absurd rfl (hprovider.1 v)
  | reject reason => exact absurd rfl (hprovider.2 reason)
  | abort reason =>
    simp only [KeyState.step, h.phase, hsignal]
    exact ⟨rfl, h.promise, h.timer, h.settlements⟩
  -- there is no timer
  | passDeadline =>
    simp only [KeyState.enabled, h.timer] at henabled
    cases henabled
  | react =>
    simp only [KeyState.enabled, h.promise, ProviderPromise.settled] at henabled
    cases henabled
  | _ =>
    simp only [KeyState.enabled, h.phase] at henabled
    cases henabled

theorem hanging_run {α : Type} {c : ProviderCall α} (hsignal : c.hasSignal = false)
    {events : List (Event α)}
    (hprovider : ∀ event ∈ events, (∀ v, event ≠ .fulfill v) ∧ ∀ reason, event ≠ .reject reason)
    {s : KeyState α} (h : Hanging s) (hlegal : (calls c).Legal s events) :
    Hanging ((calls c).run s events) := by
  induction events generalizing s with
  | nil => exact h
  | cons event events ih =>
    obtain ⟨henabled, hlegal⟩ := hlegal
    have hstep := hanging_step hsignal h henabled (hprovider event (List.mem_cons_self ..))
    exact ih (fun e he => hprovider e (List.mem_cons_of_mem _ he)) hstep hlegal

/-- A provider that is never called, to evaluate with. -/
def idleProvider : KmsProvider where
  declared _ := .undefined
  implemented _ := true
  generateDataKey _ := .rejects .other
  decrypt _ _ := .rejects .other

/-- Without a signal and with the deadline disabled, a call of `process` waits for its
    provider for good. -/
theorem process_hangs :
    ∃ (limits : EngineLimits) (plugin : KmsEncryptionPlugin) (iv : Iv), limits.Valid ∧
      ∀ events,
        (∀ event ∈ events, (∀ v, event ≠ .fulfill v) ∧ ∀ reason, event ≠ .reject reason) →
        let machine := calls (processCall (Aead.Cipher.checksum Unit tagLength) plugin iv [] (some limits)
          false)
        machine.Legal (KeyState.start DataKey) ([.call, .invokeReturns] ++ events) →
        (machine.run (KeyState.start DataKey) ([.call, .invokeReturns] ++ events)).settlements =
          [] := by
  refine ⟨{ defaultLimits with operationTimeoutMs := 0 },
    ⟨idleProvider, "key", none, by decide, rfl⟩, ⟨List.replicate 12 7, rfl⟩, ?_, ?_⟩
  · refine ⟨?_, ?_, by decide, by decide⟩
    · intro name
      cases name <;> decide
    · intro name hname
      revert name
      decide
  · intro events hprovider machine hlegal
    rw [Machine.run_append]
    have hlegal := (Machine.along_append.mp hlegal).2
    -- a limit of 0 sets no timer
    have hstart : Hanging (machine.run (KeyState.start DataKey) [.call, .invokeReturns]) :=
      ⟨rfl, rfl, rfl, rfl⟩
    exact (hanging_run rfl hprovider hstart hlegal).settlements

end PipeX.KmsEncryption
