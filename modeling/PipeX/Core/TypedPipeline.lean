/-
  PipeX.Core.TypedPipeline

  `TypedPipeline` of `src/core/typedPipeline.ts`, under the signal of its caller.

  A transform is code of the application, known only by what a call of it may come
  to.  An `Action` is one uninterrupted stretch of `run`, the end of a transform, or
  the signal; which of them comes first is left open.

  * `run_computes` — the transforms are called in order, and a run comes to what they
    compute or to the abort.
  * `run_aborted` — behind an abort nothing is called and nothing is resolved.
-/
import PipeX.Core.Operations
import PipeX.Lib.Transition

namespace PipeX

open Transition

/-! ## Pipelines -/

/-- What a call may come to: a value, which may have been awaited, or what is thrown. -/
abbrev TypedTransform (α : Type) : Type := α → Except Thrown α → Prop

structure TypedPipeline (α : Type) where
  transforms : List (TypedTransform α)
  nonempty : transforms ≠ []

/-- `typedPipeline(first)`, which is `TypedPipeline.from(first)`. -/
def typedPipeline {α : Type} (first : TypedTransform α) : TypedPipeline α :=
  ⟨[first], List.cons_ne_nil _ _⟩

/-- `pipe(transform)` makes another pipeline. -/
def TypedPipeline.pipe {α : Type} (pipeline : TypedPipeline α) (transform : TypedTransform α) :
    TypedPipeline α :=
  ⟨pipeline.transforms ++ [transform], List.append_ne_nil_of_right_ne_nil _ (List.cons_ne_nil _ _)⟩

/-! ## Runs -/

/-- A call of a transform. -/
structure TypedCall (α : Type) where
  input : α
  /-- what `pending` has been settled with -/
  result : Option (Except Thrown α)

inductive TypedProgress (α : Type) where
  /-- in front of the first `check()` -/
  | called
  /-- waits for the last call, with what the awaited promise has been settled with -/
  | awaiting (awaited : Option (Except Thrown α))
  | settled (result : Except Thrown α)

structure TypedRun (α : Type) where
  aborted : Bool
  /-- the calls that have been made, the last one first -/
  calls : List (TypedCall α)
  progress : TypedProgress α

/-- What the synchronous part of a call does. -/
structure TypedInvocation where
  throws : Option Thrown
  /-- it aborts the signal -/
  aborts : Bool

namespace TypedRun

variable {α : Type}

/-- `run(input, options)` in front of its first statement. -/
def start : TypedRun α := ⟨false, [], .called⟩

section

variable (pipeline : TypedPipeline α) (signal : Bool) (input : α)

/-- `Promise.resolve(transform(current, options))`, up to the `await`. -/
def call (current : α) (invocation : TypedInvocation) (run : TypedRun α) : TypedRun α :=
  let aborted := run.aborted || invocation.aborts
  match invocation.throws with
  | some e => ⟨aborted, ⟨current, some (.error e)⟩ :: run.calls, .settled (.error e)⟩
  | none =>
    -- `if (signal.aborted) onAbort()`
    ⟨aborted, ⟨current, none⟩ :: run.calls,
      .awaiting (if aborted then some (.error .aborted) else none)⟩

/-- The run from a `check()` on. -/
def proceed (current : α) (invocation : TypedInvocation) (run : TypedRun α) : TypedRun α :=
  if run.aborted then { run with progress := .settled (.error .aborted) }
  else if run.calls.length < pipeline.transforms.length then run.call current invocation
  else { run with progress := .settled (.ok current) }

def begin (invocation : TypedInvocation) (run : TypedRun α) : TypedRun α :=
  match run.progress with
  | .called => run.proceed pipeline input invocation
  | _ => run

/-- The awaited promise is settled, unless it has been. -/
def deliver (result : Except Thrown α) (run : TypedRun α) : TypedRun α :=
  match run.progress with
  | .awaiting none => { run with progress := .awaiting (some result) }
  | _ => run

/-- `pending` is settled; without a signal it is what is awaited. -/
def settle (result : Except Thrown α) (run : TypedRun α) : TypedRun α :=
  match run.calls with
  | [] => run
  | last :: earlier =>
    let run : TypedRun α := { run with calls := { last with result := some result } :: earlier }
    if signal then run else run.deliver result

/-- The reaction `pending.then(resolve, reject)`. -/
def react (run : TypedRun α) : TypedRun α :=
  match run.calls with
  | ⟨_, some result⟩ :: _ => run.deliver result
  | _ => run

/-- The run goes on behind its `await`. -/
def resume (invocation : TypedInvocation) (run : TypedRun α) : TypedRun α :=
  match run.progress with
  | .awaiting (some (.ok value)) => run.proceed pipeline value invocation
  | .awaiting (some (.error e)) => { run with progress := .settled (.error e) }
  | _ => run

/-- The signal is aborted, and its listener is called. -/
def abort (run : TypedRun α) : TypedRun α := deliver (.error .aborted) { run with aborted := true }

inductive Action (α : Type) where
  | begin (invocation : TypedInvocation)
  | settle (result : Except Thrown α)
  | react
  | resume (invocation : TypedInvocation)
  | abort

def step (run : TypedRun α) : Action α → TypedRun α
  | .begin invocation => run.begin pipeline input invocation
  | .settle result => run.settle signal result
  | .react => run.react
  | .resume invocation => run.resume pipeline invocation
  | .abort => run.abort

/-- What the next transform may do when it is called. -/
def Permits (current : α) (invocation : TypedInvocation) (run : TypedRun α) : Prop :=
  (invocation.aborts = true → signal = true) ∧
    ∀ transform e, pipeline.transforms[run.calls.length]? = some transform →
      invocation.throws = some e → transform current (.error e)

def enabled (run : TypedRun α) : Action α → Prop
  | .begin invocation =>
    run.progress = .called ∧ run.Permits pipeline signal input invocation
  -- also of a call that nobody waits for any more
  | .settle result =>
    ∃ last earlier, run.calls = last :: earlier ∧ last.result = none ∧
      ∀ transform, pipeline.transforms[earlier.length]? = some transform →
        transform last.input result
  | .react => signal = true ∧ ∃ input result earlier, run.calls = ⟨input, some result⟩ :: earlier
  | .resume invocation =>
    ∃ result, run.progress = .awaiting (some result) ∧
      ∀ value, result = .ok value → run.Permits pipeline signal value invocation
  | .abort => signal = true

def machine : Machine (TypedRun α) (Action α) where
  enabled := enabled pipeline signal input
  step := step pipeline signal input

end

/-! ## What a pipeline computes -/

end TypedRun

/-- What the transforms come to, applied one after the other. -/
def Computes {α : Type} : List (TypedTransform α) → α → Except Thrown α → Prop
  | [], value, result => result = .ok value
  | transform :: transforms, value, result =>
    (∃ e, transform value (.error e) ∧ result = .error e) ∨
      ∃ next, transform value (.ok next) ∧ Computes transforms next result

section Computes

variable {α : Type}

theorem computes_append {transforms transforms' : List (TypedTransform α)} {value : α}
    {result : Except Thrown α} :
    Computes (transforms ++ transforms') value result ↔
      (∃ e, Computes transforms value (.error e) ∧ result = .error e) ∨
        ∃ next, Computes transforms value (.ok next) ∧ Computes transforms' next result := by
  induction transforms generalizing value with
  | nil =>
    constructor
    · exact fun h => .inr ⟨value, rfl, h⟩
    · rintro (⟨e, h, -⟩ | ⟨next, h, hrest⟩)
      · cases h
      · cases h
        exact hrest
  | cons transform transforms ih =>
    simp only [List.cons_append, Computes, ih]
    constructor
    · rintro (⟨e, hthrows, rfl⟩ | ⟨next, hreturns, ⟨e, herror, rfl⟩ | ⟨last, hlast, hrest⟩⟩)
      · exact .inl ⟨e, .inl ⟨e, hthrows, rfl⟩, rfl⟩
      · exact .inl ⟨e, .inr ⟨next, hreturns, herror⟩, rfl⟩
      · exact .inr ⟨last, .inr ⟨next, hreturns, hlast⟩, hrest⟩
    · rintro (⟨e, ⟨e', hthrows, heq⟩ | ⟨next, hreturns, herror⟩, rfl⟩ |
        ⟨last, ⟨e', -, heq⟩ | ⟨next, hreturns, hlast⟩, hrest⟩)
      · cases heq
        exact .inl ⟨e, hthrows, rfl⟩
      · exact .inr ⟨next, hreturns, .inl ⟨e, herror, rfl⟩⟩
      · cases heq
      · exact .inr ⟨next, hreturns, .inr ⟨last, hlast, hrest⟩⟩

/-- `pipe` puts a transform behind what there is. -/
theorem computes_pipe {pipeline : TypedPipeline α} {transform : TypedTransform α} {value : α}
    {result : Except Thrown α} :
    Computes (pipeline.pipe transform).transforms value result ↔
      (∃ e, Computes pipeline.transforms value (.error e) ∧ result = .error e) ∨
        ∃ next, Computes pipeline.transforms value (.ok next) ∧ transform next result := by
  rw [TypedPipeline.pipe, computes_append]
  have hlast : ∀ next, Computes [transform] next result ↔ transform next result := by
    intro next
    cases result with
    | error e => simp [Computes]
    | ok last => simp [Computes]
  simp only [hlast]

/-- Calls that have all been fulfilled, and the value that the last one has come to. -/
inductive Fulfilled (transforms : List (TypedTransform α)) (input : α) :
    List (TypedCall α) → α → Prop where
  | nil : Fulfilled transforms input [] input
  | cons {earlier : List (TypedCall α)} {current next : α} {transform : TypedTransform α}
      (before : Fulfilled transforms input earlier current)
      (turn : transforms[earlier.length]? = some transform)
      (returns : transform current (.ok next)) :
      Fulfilled transforms input (⟨current, some (.ok next)⟩ :: earlier) next

/-- Every call but the last has been fulfilled, and each transform gets what the one before
    it has come to. -/
def InOrder (transforms : List (TypedTransform α)) (input : α) : List (TypedCall α) → Prop
  | [] => True
  | last :: earlier =>
    Fulfilled transforms input earlier last.input ∧
      ∃ transform, transforms[earlier.length]? = some transform ∧
        ∀ result, last.result = some result → transform last.input result

/-- What is left of the transforms decides. -/
theorem Fulfilled.computes {transforms : List (TypedTransform α)} {input current : α}
    {calls : List (TypedCall α)} {result : Except Thrown α}
    (h : Fulfilled transforms input calls current)
    (hrest : Computes (transforms.drop calls.length) current result) :
    Computes transforms input result := by
  induction h with
  | nil => exact hrest
  | cons _ turn returns ih =>
    obtain ⟨hlt, rfl⟩ := List.getElem?_eq_some_iff.mp turn
    apply ih
    rw [List.drop_eq_getElem_cons hlt]
    exact .inr ⟨_, returns, hrest⟩

theorem Fulfilled.inOrder {transforms : List (TypedTransform α)} {input current : α}
    {calls : List (TypedCall α)} (h : Fulfilled transforms input calls current) :
    InOrder transforms input calls := by
  cases h with
  | nil => trivial
  | cons before turn returns =>
    refine ⟨before, _, turn, fun result hresult => ?_⟩
    cases hresult
    exact returns

/-- What the last call has come to is what the next transform gets. -/
theorem InOrder.fulfilled {transforms : List (TypedTransform α)} {input value : α}
    {last : TypedCall α} {earlier : List (TypedCall α)}
    (h : InOrder transforms input (last :: earlier)) (hresult : last.result = some (.ok value)) :
    Fulfilled transforms input (last :: earlier) value := by
  obtain ⟨hfulfilled, transform, hturn, hreturns⟩ := h
  obtain ⟨current, result⟩ := last
  cases hresult
  exact .cons hfulfilled hturn (hreturns _ rfl)

theorem InOrder.throws {transforms : List (TypedTransform α)} {input : α} {e : Thrown}
    {last : TypedCall α} {earlier : List (TypedCall α)}
    (h : InOrder transforms input (last :: earlier)) (hresult : last.result = some (.error e)) :
    Computes transforms input (.error e) := by
  obtain ⟨hfulfilled, transform, hturn, hreturns⟩ := h
  obtain ⟨hlt, rfl⟩ := List.getElem?_eq_some_iff.mp hturn
  apply hfulfilled.computes
  rw [List.drop_eq_getElem_cons hlt]
  exact .inl ⟨e, hreturns _ hresult, rfl⟩

end Computes

/-! ## The invariant -/

namespace TypedRun

variable {α : Type} {pipeline : TypedPipeline α} {signal : Bool} {input : α}

/-- Where a run may be, given the signal and its calls. -/
def Standing (transforms : List (TypedTransform α)) (input : α) (aborted : Bool)
    (calls : List (TypedCall α)) : TypedProgress α → Prop
  | .called => calls = []
  | .awaiting none => aborted = false ∧ calls ≠ []
  | .awaiting (some result) =>
    (result = .error .aborted ∧ aborted = true) ∨
      ∃ last earlier, calls = last :: earlier ∧ last.result = some result
  | .settled result => (result = .error .aborted ∧ aborted = true) ∨ Computes transforms input result

structure Sound (pipeline : TypedPipeline α) (signal : Bool) (input : α) (run : TypedRun α) :
    Prop where
  inOrder : InOrder pipeline.transforms input run.calls
  standing : Standing pipeline.transforms input run.aborted run.calls run.progress
  silent : signal = false → run.aborted = false

theorem sound_start : Sound pipeline signal input start := ⟨trivial, rfl, fun _ => rfl⟩

/-- A run that does not wait for its last call is where it was when the signal is aborted. -/
theorem Standing.abort {transforms : List (TypedTransform α)} {aborted : Bool}
    {calls : List (TypedCall α)} {progress : TypedProgress α}
    (h : Standing transforms input aborted calls progress) (hprogress : progress ≠ .awaiting none) :
    Standing transforms input true calls progress := by
  match progress, h with
  | .called, h => exact h
  | .awaiting none, _ => exact absurd rfl hprogress
  | .awaiting (some _), h => exact h.imp_left fun h => ⟨h.1, rfl⟩
  | .settled _, h => exact h.imp_left fun h => ⟨h.1, rfl⟩

/-- Whoever waits for the last call waits for its result. -/
theorem Standing.settle {transforms : List (TypedTransform α)} {aborted : Bool}
    {last : TypedCall α} {earlier : List (TypedCall α)} {progress : TypedProgress α}
    (h : Standing transforms input aborted (last :: earlier) progress) (hpending : last.result = none)
    (result : Except Thrown α) :
    Standing transforms input aborted ({ last with result := some result } :: earlier) progress := by
  match progress, h with
  | .called, h => cases h
  | .awaiting none, h => exact ⟨h.1, List.cons_ne_nil _ _⟩
  | .awaiting (some _), .inl h => exact .inl h
  | .awaiting (some _), .inr ⟨_, _, hcalls, hresult⟩ =>
    cases hcalls
    rw [hpending] at hresult
    cases hresult
  | .settled _, h => exact h

/-- A result of the last call, or of the abort, is delivered. -/
theorem Sound.deliver {run : TypedRun α} {result : Except Thrown α}
    (hinOrder : InOrder pipeline.transforms input run.calls)
    (hstanding : run.progress ≠ .awaiting none →
      Standing pipeline.transforms input run.aborted run.calls run.progress)
    (hsilent : signal = false → run.aborted = false)
    (hresult : (result = .error .aborted ∧ run.aborted = true) ∨
      ∃ last earlier, run.calls = last :: earlier ∧ last.result = some result) :
    Sound pipeline signal input (run.deliver result) := by
  unfold TypedRun.deliver
  split
  · exact ⟨hinOrder, hresult, hsilent⟩
  · rename_i hprogress
    exact ⟨hinOrder, hstanding hprogress, hsilent⟩

/-- The run goes on with what its calls have been fulfilled with. -/
theorem Sound.proceed {run : TypedRun α} {current : α} {invocation : TypedInvocation}
    (h : Sound pipeline signal input run)
    (hfulfilled : Fulfilled pipeline.transforms input run.calls current)
    (hpermits : run.Permits pipeline signal current invocation) :
    Sound pipeline signal input (run.proceed pipeline current invocation) := by
  obtain ⟨haborts, hthrows⟩ := hpermits
  unfold TypedRun.proceed
  split
  · rename_i haborted
    exact ⟨h.inOrder, .inl ⟨rfl, haborted⟩, h.silent⟩
  split
  · rename_i hlt
    have hturn := List.getElem?_eq_getElem hlt
    have hsilent : signal = false → (run.aborted || invocation.aborts) = false := by
      intro hsignal
      rw [Bool.or_eq_false_iff]
      refine ⟨h.silent hsignal, Bool.eq_false_iff.mpr fun hinvocation => ?_⟩
      rw [haborts hinvocation] at hsignal
      cases hsignal
    unfold TypedRun.call
    split
    · rename_i e hthrown
      have hcall : InOrder pipeline.transforms input (⟨current, some (.error e)⟩ :: run.calls) := by
        refine ⟨hfulfilled, _, hturn, fun result hresult => ?_⟩
        cases hresult
        exact hthrows _ e hturn hthrown
      exact ⟨hcall, .inr (hcall.throws rfl), hsilent⟩
    · refine ⟨⟨hfulfilled, _, hturn, nofun⟩, ?_, hsilent⟩
      -- a transform that aborts the signal is not waited for
      generalize (run.aborted || invocation.aborts) = aborted
      cases aborted with
      | true => exact .inl ⟨rfl, rfl⟩
      | false => exact ⟨rfl, List.cons_ne_nil _ _⟩
  · rename_i hend
    refine ⟨h.inOrder, .inr (hfulfilled.computes ?_), h.silent⟩
    rw [List.drop_eq_nil_of_le (Nat.le_of_not_lt hend)]
    rfl

/-- The last call is settled, also where nobody waits for it any more. -/
theorem Sound.settle {run : TypedRun α} {result : Except Thrown α}
    (h : Sound pipeline signal input run)
    (henabled : run.enabled pipeline signal input (.settle result)) :
    Sound pipeline signal input (run.settle signal result) := by
  obtain ⟨last, earlier, hcalls, hpending, hresult⟩ := henabled
  obtain ⟨hfulfilled, transform, hturn, -⟩ := hcalls ▸ h.inOrder
  have hinOrder : InOrder pipeline.transforms input
      ({ last with result := some result } :: earlier) := by
    refine ⟨hfulfilled, transform, hturn, fun result' hresult' => ?_⟩
    cases hresult'
    exact hresult transform hturn
  have hstanding := (hcalls ▸ h.standing).settle hpending result
  unfold TypedRun.settle
  rw [hcalls]
  simp only
  split
  · exact ⟨hinOrder, hstanding, h.silent⟩
  · exact .deliver hinOrder (fun _ => hstanding) h.silent (.inr ⟨_, _, rfl, rfl⟩)

theorem sound_step {run : TypedRun α} {action : Action α} (h : Sound pipeline signal input run)
    (henabled : (machine pipeline signal input).enabled run action) :
    Sound pipeline signal input ((machine pipeline signal input).step run action) := by
  have hstanding := h.standing
  cases action with
  | begin invocation =>
    obtain ⟨hcalled, hpermits⟩ := henabled
    rw [hcalled] at hstanding
    have hcalls : run.calls = [] := hstanding
    show Sound _ _ _ (run.begin pipeline input invocation)
    unfold TypedRun.begin
    rw [hcalled]
    refine h.proceed ?_ hpermits
    rw [hcalls]
    exact .nil
  | settle result => exact h.settle henabled
  | react =>
    obtain ⟨-, current, result, earlier, hcalls⟩ := henabled
    show Sound _ _ _ run.react
    unfold TypedRun.react
    rw [hcalls]
    exact .deliver h.inOrder (fun _ => hstanding) h.silent (.inr ⟨_, _, hcalls, rfl⟩)
  | resume invocation =>
    obtain ⟨result, hawaiting, hpermits⟩ := henabled
    rw [hawaiting] at hstanding
    show Sound _ _ _ (run.resume pipeline invocation)
    unfold TypedRun.resume
    rw [hawaiting]
    cases result with
    | error e =>
      refine ⟨h.inOrder, ?_, h.silent⟩
      rcases hstanding with habort | ⟨last, earlier, hcalls, hlast⟩
      · exact .inl habort
      · exact .inr ((hcalls ▸ h.inOrder).throws hlast)
    | ok value =>
      rcases hstanding with ⟨heq, -⟩ | ⟨last, earlier, hcalls, hlast⟩
      · cases heq
      · refine h.proceed ?_ (hpermits value rfl)
        rw [hcalls]
        exact (hcalls ▸ h.inOrder).fulfilled hlast
  | abort =>
    have hsignal : signal = true := henabled
    show Sound _ _ _ run.abort
    refine .deliver h.inOrder hstanding.abort (fun hsilent => ?_) (.inl ⟨rfl, rfl⟩)
    rw [hsignal] at hsilent
    cases hsilent

theorem sound_run {actions : List (Action α)}
    (hlegal : (machine pipeline signal input).Legal start actions) :
    Sound pipeline signal input ((machine pipeline signal input).run start actions) := by
  refine Machine.invariant (P := Sound pipeline signal input) ?_ sound_start hlegal
  intro run action h henabled
  exact sound_step h henabled

/-! ## Runs that nobody aborts -/

/-- A call that returns a promise. -/
def quiet : TypedInvocation := ⟨none, false⟩

theorem permits_quiet (run : TypedRun α) (current : α) :
    run.Permits pipeline signal current quiet := ⟨nofun, nofun⟩

variable (signal) in
/-- The promise of the last call is settled, and the run has heard of it. -/
theorem settles_leads {current : α} {calls : List (TypedCall α)} {transform : TypedTransform α}
    {result : Except Thrown α} (hturn : pipeline.transforms[calls.length]? = some transform)
    (hresult : transform current result) (input : α) :
    ∃ actions, (machine pipeline signal input).Leads
      ⟨false, ⟨current, none⟩ :: calls, .awaiting none⟩ actions
      ⟨false, ⟨current, some result⟩ :: calls, .awaiting (some result)⟩ := by
  have hsettle : enabled pipeline signal input
      ⟨false, ⟨current, none⟩ :: calls, .awaiting none⟩ (.settle result) := by
    refine ⟨_, _, rfl, rfl, fun transform' hturn' => ?_⟩
    cases hturn.symm.trans hturn'
    exact hresult
  cases signal with
  | true => exact ⟨[.settle result, .react], ⟨hsettle, ⟨rfl, _, _, _, rfl⟩, trivial⟩, rfl⟩
  | false => exact ⟨[.settle result], ⟨hsettle, trivial⟩, rfl⟩

/-- From a `check()` on, the run may come to whatever the rest of the transforms computes. -/
theorem proceed_leads (signal : Bool) (input : α) {rest : List (TypedTransform α)}
    {run : TypedRun α} {current : α} {result : Except Thrown α} (haborted : run.aborted = false)
    (hrest : pipeline.transforms.drop run.calls.length = rest)
    (hcomputes : Computes rest current result) :
    ∃ actions calls, (machine pipeline signal input).Leads (run.proceed pipeline current quiet)
      actions ⟨false, calls, .settled result⟩ := by
  obtain ⟨aborted, calls, progress⟩ := run
  obtain rfl : aborted = false := haborted
  induction rest generalizing calls progress current with
  | nil =>
    have hend : ¬ calls.length < pipeline.transforms.length :=
      Nat.not_lt.mpr (List.drop_eq_nil_iff.mp hrest)
    obtain rfl : result = .ok current := hcomputes
    refine ⟨[], calls, trivial, ?_⟩
    simp [TypedRun.proceed, hend]
  | cons transform rest ih =>
    have hlt : calls.length < pipeline.transforms.length := by
      by_contra hend
      rw [List.drop_eq_nil_of_le (Nat.not_lt.mp hend)] at hrest
      cases hrest
    rw [List.drop_eq_getElem_cons hlt, List.cons.injEq] at hrest
    obtain ⟨rfl, hrest⟩ := hrest
    have hcall : (⟨false, calls, progress⟩ : TypedRun α).proceed pipeline current quiet =
        ⟨false, ⟨current, none⟩ :: calls, .awaiting none⟩ := by
      simp [TypedRun.proceed, TypedRun.call, quiet, hlt]
    rw [hcall]
    have hturn := List.getElem?_eq_getElem hlt
    rcases hcomputes with ⟨e, hthrows, rfl⟩ | ⟨next, hreturns, hcomputes⟩
    · obtain ⟨actions, hsettles⟩ := settles_leads signal hturn hthrows input
      have hresume : (machine pipeline signal input).Leads
          ⟨false, ⟨current, some (.error e)⟩ :: calls, .awaiting (some (.error e))⟩ [.resume quiet]
          ⟨false, ⟨current, some (.error e)⟩ :: calls, .settled (.error e)⟩ :=
        ⟨⟨⟨_, rfl, nofun⟩, trivial⟩, rfl⟩
      exact ⟨_, _, hsettles.append hresume⟩
    · obtain ⟨actions, hsettles⟩ := settles_leads signal hturn hreturns input
      obtain ⟨actions', calls', hproceeds⟩ := ih hcomputes
        (⟨current, some (.ok next)⟩ :: calls) (.awaiting (some (.ok next))) hrest
      have hresume : (machine pipeline signal input).Leads
          ⟨false, ⟨current, some (.ok next)⟩ :: calls, .awaiting (some (.ok next))⟩ [.resume quiet]
          (TypedRun.proceed pipeline next quiet
            ⟨false, ⟨current, some (.ok next)⟩ :: calls, .awaiting (some (.ok next))⟩) :=
        ⟨⟨⟨_, rfl, fun _ _ => permits_quiet _ _⟩, trivial⟩, rfl⟩
      exact ⟨_, _, hsettles.append (hresume.append hproceeds)⟩

/-! ## What has been settled or aborted -/

theorem deliver_calls (run : TypedRun α) (result : Except Thrown α) :
    (run.deliver result).calls = run.calls := by
  unfold deliver
  split
  · rfl
  · rfl

theorem deliver_settled {run : TypedRun α} {result result' : Except Thrown α} :
    (run.deliver result').progress = .settled result ↔ run.progress = .settled result := by
  unfold deliver
  split
  · rename_i hprogress
    rw [hprogress]
    exact ⟨nofun, nofun⟩
  · exact Iff.rfl

variable (pipeline signal input)

/-- What happens outside the run calls nothing and settles nothing. -/
theorem step_outside (run : TypedRun α) {action : Action α}
    (hbegin : ∀ invocation, action ≠ .begin invocation)
    (hresume : ∀ invocation, action ≠ .resume invocation) :
    (run.step pipeline signal input action).calls.length = run.calls.length ∧
      ∀ result, (run.step pipeline signal input action).progress = .settled result ↔
        run.progress = .settled result := by
  cases action with
  | begin invocation => exact absurd rfl (hbegin invocation)
  | resume invocation => exact absurd rfl (hresume invocation)
  | settle result =>
    simp only [step]
    unfold settle
    split
    · exact ⟨rfl, fun _ => Iff.rfl⟩
    · rename_i last earlier hcalls
      simp only
      split
      · exact ⟨by rw [hcalls]; rfl, fun _ => Iff.rfl⟩
      · exact ⟨by rw [deliver_calls, hcalls]; rfl, fun _ => deliver_settled⟩
  | react =>
    simp only [step]
    unfold react
    split
    · exact ⟨by rw [deliver_calls], fun _ => deliver_settled⟩
    · exact ⟨rfl, fun _ => Iff.rfl⟩
  | abort => exact ⟨by rw [step, abort, deliver_calls], fun _ => deliver_settled⟩

/-- A run that is aborted or settled calls nothing and resolves with nothing any more. -/
structure Ended (before after : TypedRun α) : Prop where
  calls : after.calls.length = before.calls.length
  resolved : ∀ value, after.progress = .settled (.ok value) →
    before.progress = .settled (.ok value)
  settled : ∀ result, before.progress = .settled result → after.progress = .settled result

theorem ended_step (run : TypedRun α) (action : Action α)
    (h : run.aborted = true ∨ ∃ result, run.progress = .settled result) :
    Ended run (run.step pipeline signal input action) := by
  have hsame : ∀ run : TypedRun α, Ended run run := fun run => ⟨rfl, fun _ h => h, fun _ h => h⟩
  have hproceed : ∀ current invocation, run.aborted = true →
      (∀ result, run.progress ≠ .settled result) →
      Ended run (run.proceed pipeline current invocation) := by
    intro current invocation haborted hopen
    rw [TypedRun.proceed, if_pos haborted]
    exact ⟨rfl, nofun, fun result hresult => absurd hresult (hopen result)⟩
  have haborted : (∀ result, run.progress ≠ .settled result) → run.aborted = true :=
    fun hopen => h.resolve_right fun ⟨result, hresult⟩ => hopen result hresult
  have houtside : (∀ invocation, action ≠ .begin invocation) →
      (∀ invocation, action ≠ .resume invocation) →
        Ended run (run.step pipeline signal input action) := by
    intro hbegin hresume
    obtain ⟨hcalls, hsettled⟩ := step_outside pipeline signal input run hbegin hresume
    exact ⟨hcalls, fun _ => (hsettled _).mp, fun _ => (hsettled _).mpr⟩
  cases action with
  | begin invocation =>
    simp only [step]
    unfold TypedRun.begin
    split
    · rename_i hcalled
      have hopen : ∀ result, run.progress ≠ .settled result := by
        intro result hresult
        rw [hcalled] at hresult
        cases hresult
      exact hproceed _ _ (haborted hopen) hopen
    · exact hsame run
  | resume invocation =>
    simp only [step]
    unfold TypedRun.resume
    split
    · rename_i hawaiting
      have hopen : ∀ result, run.progress ≠ .settled result := by
        intro result hresult
        rw [hawaiting] at hresult
        cases hresult
      exact hproceed _ _ (haborted hopen) hopen
    · rename_i hawaiting
      refine ⟨rfl, nofun, fun result hresult => ?_⟩
      rw [hawaiting] at hresult
      cases hresult
    · exact hsame run
  | settle result => exact houtside nofun nofun
  | react => exact houtside nofun nofun
  | abort => exact houtside nofun nofun

variable {pipeline signal input}

/-- A run that has been aborted waits for nothing: it rejects as soon as it goes on. -/
theorem Sound.rejects {run : TypedRun α} (h : Sound pipeline signal input run)
    (haborted : run.aborted = true) (hopen : ∀ result, run.progress ≠ .settled result) :
    ∃ action e, run.enabled pipeline signal input action ∧
      (run.step pipeline signal input action).progress = .settled (.error e) := by
  have hstanding := h.standing
  have hproceed : ∀ current, (run.proceed pipeline current quiet).progress =
      .settled (.error .aborted) := by
    intro current
    rw [TypedRun.proceed, if_pos haborted]
  cases hprogress : run.progress with
  | called =>
    refine ⟨.begin quiet, .aborted, ⟨hprogress, permits_quiet _ _⟩, ?_⟩
    simp only [step, TypedRun.begin, hprogress]
    exact hproceed input
  | awaiting awaited =>
    rw [hprogress] at hstanding
    cases awaited with
    | none =>
      rw [haborted] at hstanding
      cases hstanding.1
    | some result =>
      cases result with
      | error e =>
        refine ⟨.resume quiet, e, ⟨_, hprogress, nofun⟩, ?_⟩
        simp only [step, TypedRun.resume, hprogress]
      | ok value =>
        refine ⟨.resume quiet, .aborted, ⟨_, hprogress, fun _ _ => permits_quiet _ _⟩, ?_⟩
        simp only [step, TypedRun.resume, hprogress]
        exact hproceed value
  | settled result => exact absurd hprogress (hopen result)

/-! ## Results -/

/-- A pipeline that adds one and doubles. -/
def samplePipeline : TypedPipeline Nat :=
  (typedPipeline fun n result => result = .ok (n + 1)).pipe fun n result => result = .ok (2 * n)

/-- In every run the transforms are called in order, each with what the one before it has been
    fulfilled with, and the run comes to what they compute or to the abort; and whatever they
    compute some run comes to, if nobody aborts it. -/
theorem run_computes (pipeline : TypedPipeline α) (signal : Bool) (input : α) :
    (∀ actions, (machine pipeline signal input).Legal start actions →
      InOrder pipeline.transforms input ((machine pipeline signal input).run start actions).calls ∧
      ∀ result, ((machine pipeline signal input).run start actions).progress = .settled result →
        (result = .error .aborted ∧
          ((machine pipeline signal input).run start actions).aborted = true) ∨
        Computes pipeline.transforms input result) ∧
    ∀ result, Computes pipeline.transforms input result →
      ∃ actions, (machine pipeline signal input).Legal start actions ∧
        ((machine pipeline signal input).run start actions).aborted = false ∧
        ((machine pipeline signal input).run start actions).progress = .settled result := by
  constructor
  · intro actions hlegal
    have h := sound_run hlegal
    refine ⟨h.inOrder, fun result hsettled => ?_⟩
    have hstanding := h.standing
    rw [hsettled] at hstanding
    exact hstanding
  · intro result hcomputes
    have hbegin : (machine pipeline signal input).Leads start [.begin quiet]
        (TypedRun.proceed pipeline input quiet start) :=
      ⟨⟨⟨rfl, permits_quiet _ _⟩, trivial⟩, rfl⟩
    obtain ⟨actions, calls, hproceeds⟩ :=
      proceed_leads signal input (rfl : (start : TypedRun α).aborted = false) rfl hcomputes
    obtain ⟨hlegal, hrun⟩ := hbegin.append hproceeds
    exact ⟨_, hlegal, by rw [hrun], by rw [hrun]⟩

theorem run_computes_sample :
    ∃ actions, (machine samplePipeline true 3).Legal start actions ∧
      ((machine samplePipeline true 3).run start actions).progress = .settled (.ok 8) := by
  obtain ⟨actions, hlegal, -, hsettled⟩ := (run_computes samplePipeline true 3).2 (.ok 8)
    (.inr ⟨4, rfl, .inr ⟨8, rfl, rfl⟩⟩)
  exact ⟨actions, hlegal, hsettled⟩

/-- Behind an abort no transform is called and the run does not resolve, and what a run has
    come to stays; a run that is aborted before it has come to anything can go on at once,
    whatever it waits for, and rejects. -/
theorem run_aborted {actions : List (Action α)}
    (hlegal : (machine pipeline signal input).Legal start actions) :
    (machine pipeline signal input).Along (fun run action =>
      (run.aborted = true ∨ ∃ result, run.progress = .settled result) →
        Ended run ((machine pipeline signal input).step run action)) start actions ∧
    let run := (machine pipeline signal input).run start actions
    run.aborted = true → (∀ result, run.progress ≠ .settled result) →
      ∃ action e, (machine pipeline signal input).enabled run action ∧
        ((machine pipeline signal input).step run action).progress = .settled (.error e) := by
  refine ⟨?_, fun haborted hopen => (sound_run hlegal).rejects haborted hopen⟩
  refine Machine.along_of_invariant (P := fun _ => True) (fun _ _ _ _ => trivial) ?_ trivial hlegal
  intro run action _ _
  exact ended_step pipeline signal input run action

/-- The signal is aborted while the first transform is under way, which ends too late. -/
theorem run_aborted_sample :
    ∃ action e, (machine samplePipeline true 3).enabled
        ((machine samplePipeline true 3).run start
          [.begin quiet, .abort, .settle (.ok 4), .react]) action ∧
      ((machine samplePipeline true 3).step
        ((machine samplePipeline true 3).run start
          [.begin quiet, .abort, .settle (.ok 4), .react]) action).progress =
        .settled (.error e) := by
  have hlegal : (machine samplePipeline true 3).Legal start
      [.begin quiet, .abort, .settle (.ok 4), .react] := by
    refine ⟨⟨rfl, permits_quiet _ _⟩, rfl, ⟨_, _, rfl, rfl, ?_⟩, ⟨rfl, _, _, _, rfl⟩, trivial⟩
    rintro transform ⟨⟩
    rfl
  exact (run_aborted hlegal).2 rfl nofun

end TypedRun
end PipeX
