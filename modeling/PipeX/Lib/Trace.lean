/-
  PipeX.Lib.Trace

  What a program has written, read by an automaton.

  `Path step s outs t`: the outputs lead the automaton from `s` to `t`.
  `Traces step s x next`: so do those of the call `x`, begun in `s`, wherever it stops,
  and a call that returns leaves the automaton where `next` says.  There is one rule for
  each way to put programs together, loops over a chunk and stream stages included.
-/
import PipeX.Lib.Chunked

namespace Chunked

variable {ο ε κ α β σ ι : Type}

/-- The outputs lead from one state to another. -/
inductive Path (step : κ → ο → κ → Prop) : κ → List ο → κ → Prop where
  | nil (s : κ) : Path step s [] s
  | cons {s t u : κ} {o : ο} {outs : List ο} (first : step s o t) (rest : Path step t outs u) :
      Path step s (o :: outs) u

/-- What `x` writes from `s` on is a path, which ends in `next a` if it returns `a`. -/
def Traces (step : κ → ο → κ → Prop) (s : κ) (x : Emit ο ε α) (next : α → κ) : Prop :=
  ∃ t, Path step s x.out t ∧ ∀ a, x.result = .ok a → t = next a

variable {step : κ → ο → κ → Prop}

theorem Path.append {s t u : κ} {as bs : List ο} (h : Path step s as t) (h' : Path step t bs u) :
    Path step s (as ++ bs) u := by
  induction h with
  | nil s => exact h'
  | cons first rest ih => exact .cons first (ih h')

/-- Outputs of another form. -/
theorem Path.map {ο' : Type} {g : ο → ο'} {step : κ → ο' → κ → Prop} {s t : κ} {outs : List ο}
    (h : Path (fun s o t => step s (g o) t) s outs t) : Path step s (outs.map g) t := by
  induction h with
  | nil s => exact .nil s
  | cons first rest ih => exact .cons first ih

namespace Traces

/-! ## Single steps -/

theorem pure {s : κ} {a : α} {next : α → κ} (h : s = next a) :
    Traces step s (Pure.pure a : Emit ο ε α) next :=
  ⟨s, .nil s, fun b hb => by cases hb; exact h⟩

theorem fail {s : κ} {e : ε} {next : α → κ} : Traces step s (Emit.fail e : Emit ο ε α) next :=
  ⟨s, .nil s, fun b hb => by cases hb⟩

theorem ofExcept {s : κ} {x : Except ε α} : Traces step s (Emit.ofExcept x : Emit ο ε α) fun _ => s :=
  ⟨s, .nil s, fun _ _ => rfl⟩

theorem push {s t : κ} {o : ο} {next : Unit → κ} (h : step s o t) (ht : t = next ()) :
    Traces step s (Emit.push o : Emit ο ε Unit) next :=
  ⟨t, .cons h (.nil t), fun _ _ => ht⟩

/-! ## Composition -/

theorem bind {s : κ} {x : Emit ο ε α} {f : α → Emit ο ε β} {m : α → κ} {next : β → κ}
    (h : Traces step s x m) (hf : ∀ a, x.result = .ok a → Traces step (m a) (f a) next) :
    Traces step s (x >>= f) next := by
  obtain ⟨t, hpath, hm⟩ := h
  cases hx : x.result with
  | error e =>
    rw [Emit.bind_error hx]
    exact ⟨t, hpath, fun b hb => by cases hb⟩
  | ok a =>
    rw [Emit.bind_ok hx]
    obtain ⟨u, hrest, hnext⟩ := hf a hx
    rw [← hm a hx] at hrest
    exact ⟨u, hpath.append hrest, hnext⟩

/-- One branch or the other. -/
theorem ite {s : κ} {p : Prop} [Decidable p] {x y : Emit ο ε α} {next : α → κ}
    (hthen : p → Traces step s x next) (helse : ¬ p → Traces step s y next) :
    Traces step s (if p then x else y) next := by
  by_cases hp : p
  · rw [if_pos hp]
    exact hthen hp
  · rw [if_neg hp]
    exact helse hp

/-- A check in front. -/
theorem failIf {s : κ} {p : Prop} [Decidable p] {e : ε} {x : Emit ο ε α} {next : α → κ}
    (h : Traces step s x next) :
    Traces step s (if p then Emit.fail e >>= fun _ : β => x else x) next :=
  ite (fun _ => fail) fun _ => h

theorem mapOut {ο' : Type} {g : ο → ο'} {step : κ → ο' → κ → Prop} {s : κ} {x : Emit ο ε α}
    {next : α → κ} (h : Traces (fun s o t => step s (g o) t) s x next) :
    Traces step s (x.mapOut g) next :=
  h.imp fun _ h => ⟨h.1.map, h.2⟩

/-- What was written, wherever the call has stopped. -/
theorem path {s : κ} {x : Emit ο ε α} {next : α → κ} (h : Traces step s x next) :
    ∃ t, Path step s x.out t :=
  h.imp fun _ h => h.1

/-! ## Loops and stages -/

/-- The state of the automaton where a pass has left off. -/
def atProgress (k : σ → κ) : Progress σ ι → κ
  | .more s => k s
  | .done s _ => k s

/-- A loop whose passes are traced; `k` is the state of the automaton between them. -/
theorem run {k : σ → κ} {loop : InputLoop σ ι ο ε}
    (hbody : ∀ s input, input ≠ [] →
      Traces step (k s) (loop.body s input) (atProgress k)) (s : σ) (input : List ι) :
    Traces step (k s) (loop.run s input) k := by
  induction s, input using loop.induct with
  | nil s => exact pure rfl
  | pass s input hne ih =>
    rw [loop.run_of_ne_nil s hne]
    refine (hbody s input hne).bind fun p hp => ?_
    cases p with
    | more s' => exact pure rfl
    | done s' rest => exact ih s' rest hp

/-- A stage whose calls are traced. -/
theorem feed {k : σ → κ} (stage : Transform σ ι ο ε)
    (htransform : ∀ s chunk, Traces step (k s) (stage.transform s chunk) k) (s : σ)
    (chunks : List ι) : Traces step (k s) (stage.feed s chunks) k := by
  induction chunks generalizing s with
  | nil => exact pure rfl
  | cons chunk chunks ih =>
    rw [Transform.feed_cons]
    exact (htransform s chunk).bind fun s' _ => ih s'

end Traces
end Chunked
