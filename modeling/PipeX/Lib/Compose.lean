/-
  PipeX.Lib.Compose

  A row of stages as one stage, and stages whose errors are wrapped.
-/
import PipeX.Lib.Inverse

namespace Chunked

open Outcomes

variable {α ε ε' : Type}

/-- Write several outputs. -/
def Emit.pushAll {ο : Type} (outs : List ο) : Emit ο ε Unit := ⟨outs, .ok ()⟩

/-- The row as one stage; of a row that fails nothing is written. -/
def compose (stages : List (Stage α ε)) : Stage α ε :=
  fun chunks => Emit.ofExcept (runStages stages chunks) >>= Emit.pushAll

theorem compose_eq_ok {stages : List (Stage α ε)} {chunks out : List (List α)} :
    compose stages chunks = ⟨out, .ok ()⟩ ↔ runStages stages chunks = .ok out := by
  rw [compose]
  cases runStages stages chunks with
  | error e => exact iff_of_false (fun h => nomatch congrArg Emit.result h) (fun h => nomatch h)
  | ok out' =>
    constructor
    · intro h
      exact congrArg Except.ok (congrArg Emit.out h)
    · rintro ⟨⟩
      rfl

/-- The row computes what its stages do, cut into the chunks of the last of them. -/
theorem compose_computes {stages : List (Stage α ε)} {f : List α → Except ε (List α)}
    (h : Realizes stages f) : (compose stages).Computes f := by
  intro chunks
  have hpieces := h chunks
  rw [compose]
  cases hrun : runStages stages chunks with
  | error e =>
    cases hf : f chunks.flatten with
    | error e' => exact Emit.delivers_error (Emit.not_succeeds_fail e) e'
    | ok all =>
      rw [hrun, hf] at hpieces
      exact absurd hpieces id
  | ok out =>
    rw [pieces_ok hpieces hrun]
    exact Emit.delivers_ok rfl rfl

/-! ## Errors -/

/-- The same call, its error wrapped. -/
def Emit.mapError {ο β : Type} (wrap : ε → ε') (call : Emit ο ε β) : Emit ο ε' β :=
  ⟨call.out, call.result.mapError wrap⟩

/-- The same stage, its errors wrapped. -/
def Stage.mapError (wrap : ε → ε') (stage : Stage α ε) : Stage α ε' :=
  fun chunks => (stage chunks).mapError wrap

theorem Emit.mapError_eq_ok {ο : Type} {wrap : ε → ε'} {call : Emit ο ε Unit} {out : List ο} :
    call.mapError wrap = ⟨out, .ok ()⟩ ↔ call = ⟨out, .ok ()⟩ := by
  obtain ⟨out', result⟩ := call
  cases result with
  | error e =>
    exact iff_of_false (fun h => nomatch congrArg Emit.result h)
      (fun h => nomatch congrArg Emit.result h)
  | ok u => simp [Emit.mapError, Except.mapError]

/-- Wrapping leaves alone what comes out. -/
theorem completed_mapError (wrap : ε → ε') (stage : Stage α ε) (chunks : List (List α)) :
    (stage.mapError wrap).completed chunks = (stage.completed chunks).mapError wrap := by
  simp only [Stage.completed, Emit.completed, Stage.mapError, Emit.mapError]
  cases (stage (handOver chunks)).result with
  | error e => rfl
  | ok u => rfl

theorem mapError_ok {β : Type} {wrap : ε → ε'} {x : Except ε β} {b : β} :
    x.mapError wrap = .ok b ↔ x = .ok b := by
  cases x with
  | error e => exact iff_of_false (fun h => nomatch h) (fun h => nomatch h)
  | ok a => simp [Except.mapError]

theorem computes_mapError (wrap : ε → ε') {stage : Stage α ε} {f : List α → Except ε (List α)}
    (h : stage.Computes f) : (stage.mapError wrap).Computes fun data => (f data).mapError wrap := by
  intro chunks
  obtain ⟨hiff, hout⟩ := h chunks
  show ((stage chunks).mapError wrap).Delivers ((f chunks.flatten).mapError wrap)
  cases hf : f chunks.flatten with
  | error e =>
    refine Emit.delivers_error ?_ (wrap e)
    rintro ⟨u, hu⟩
    obtain ⟨all, hall⟩ := hiff.mp ⟨u, mapError_ok.mp hu⟩
    rw [hf] at hall
    cases hall
  | ok all =>
    obtain ⟨u, hu⟩ := hiff.mpr ⟨all, hf⟩
    have hwrapped : ((stage chunks).mapError wrap).result = .ok () := mapError_ok.mpr hu
    exact Emit.delivers_ok hwrapped (hout all hf)

/-- Another whole, which the first agrees with. -/
theorem Emit.Delivers.congr {call : Emit (List α) ε Unit} {whole whole' : Except ε (List α)}
    (h : call.Delivers whole) (hagree : Agree whole whole') : call.Delivers whole' := by
  cases whole with
  | error e =>
    cases whole' with
    | error e' =>
      refine Emit.delivers_error (fun hsucc => ?_) e'
      obtain ⟨all, hall⟩ := h.1.mp hsucc
      cases hall
    | ok all => exact absurd hagree id
  | ok all =>
    cases whole' with
    | error e' => exact absurd hagree id
    | ok all' =>
      cases hagree
      exact h

end Chunked
