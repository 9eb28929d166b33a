/-
  PipeX.Lib.Triple

  Pre- and postconditions of `EStateM` programs.  A program that fails keeps what it
  has changed, so a triple has a second postcondition, for the states in which the
  program may fail.
-/
import Mathlib.Tactic.Common

variable {σ ε α β : Type}

/-- A sequence that returns has returned from its first half. -/
theorem run_bind_ok {x : EStateM ε σ α} {f : α → EStateM ε σ β} {s s' : σ} {b : β}
    (h : (x >>= f).run s = .ok b s') : ∃ a middle, x.run s = .ok a middle ∧
      (f a).run middle = .ok b s' := by
  rw [EStateM.run_bind] at h
  cases hx : x.run s with
  | ok a middle =>
    rw [hx] at h
    exact ⟨a, middle, rfl, h⟩
  | error e middle =>
    rw [hx] at h
    cases h

/-- From a state in `P` the program returns into `Q` or fails into `E`. -/
def Triple (P : σ → Prop) (x : EStateM ε σ α) (Q : α → σ → Prop) (E : σ → Prop) : Prop :=
  ∀ s, P s →
    match x.run s with
    | .ok a s' => Q a s'
    | .error _ s' => E s'

namespace Triple

variable {P P' : σ → Prop} {Q Q' : α → σ → Prop} {E E' : σ → Prop}

/-! ## Single steps -/

theorem ret {a : α} (h : ∀ s, P s → Q a s) : Triple P (pure a : EStateM ε σ α) Q E :=
  fun s hs => h s hs

theorem fail {e : ε} (h : ∀ s, P s → E s) : Triple P (throw e : EStateM ε σ α) Q E :=
  fun s hs => h s hs

theorem update {f : σ → σ} {Q : PUnit → σ → Prop} (h : ∀ s, P s → Q ⟨⟩ (f s)) :
    Triple P (modify f : EStateM ε σ PUnit) Q E :=
  fun s hs => h s hs

theorem modifying {f : σ → α × σ} (h : ∀ s, P s → Q (f s).1 (f s).2) :
    Triple P (modifyGet f : EStateM ε σ α) Q E :=
  fun s hs => h s hs

/-! ## Rules -/

theorem weaken {x : EStateM ε σ α} (h : Triple P x Q E) (hP : ∀ s, P' s → P s)
    (hQ : ∀ a s, Q a s → Q' a s) (hE : ∀ s, E s → E' s) : Triple P' x Q' E' := by
  intro s hs
  have hrun := h s (hP s hs)
  cases hx : x.run s with
  | ok a s' =>
    rw [hx] at hrun
    exact hQ a s' hrun
  | error e s' =>
    rw [hx] at hrun
    exact hE s' hrun

/-- What the first half returns into is where the second half starts. -/
theorem bind {x : EStateM ε σ α} {f : α → EStateM ε σ β} {R : β → σ → Prop}
    (hx : Triple P x Q E) (hf : ∀ a, Triple (Q a) (f a) R E) : Triple P (x >>= f) R E := by
  intro s hs
  have hrun := hx s hs
  rw [EStateM.run_bind]
  cases hxs : x.run s with
  | ok a s' =>
    rw [hxs] at hrun
    exact hf a s' hrun
  | error e s' =>
    rw [hxs] at hrun
    exact hrun

/-- What the precondition says of no state is known at once. -/
theorem checked {c : Prop} {x : EStateM ε σ α} (h : c → Triple P x Q E) :
    Triple (fun s => c ∧ P s) x Q E :=
  fun s hs => h hs.1 s hs.2

theorem ite {c : Prop} [Decidable c] {x y : EStateM ε σ α} (hx : c → Triple P x Q E)
    (hy : ¬ c → Triple P y Q E) : Triple P (if c then x else y) Q E := by
  by_cases hc : c
  · rw [if_pos hc]
    exact hx hc
  · rw [if_neg hc]
    exact hy hc

/-- A loop over a list keeps what its body keeps. -/
theorem foldlM {I : β → σ → Prop} {f : β → α → EStateM ε σ β}
    (hf : ∀ b a, Triple (I b) (f b a) I E) (l : List α) (b : β) :
    Triple (I b) (l.foldlM f b) I E := by
  induction l generalizing b with
  | nil => exact ret fun s hs => hs
  | cons a l ih =>
    rw [List.foldlM_cons]
    exact bind (hf b a) fun b' => ih b'

/-- A `catch` block starts where its `try` block may fail. -/
theorem catching {F : σ → Prop} {x : EStateM ε σ α} {handle : ε → EStateM ε σ α}
    (hx : Triple P x Q F) (hh : ∀ e, Triple F (handle e) Q E) : Triple P (tryCatch x handle) Q E := by
  intro s hs
  have hrun := hx s hs
  have hcatch : (tryCatch x handle : EStateM ε σ α).run s =
      match x.run s with
      | .ok a s' => .ok a s'
      | .error e s' => (handle e).run s' := by
    show EStateM.tryCatch x handle s = _
    rw [EStateM.tryCatch, EStateM.run]
    cases x s with
    | ok a s' => rfl
    | error e s' => rfl
  rw [hcatch]
  cases hxs : x.run s with
  | ok a s' =>
    rw [hxs] at hrun
    exact hrun
  | error e s' =>
    rw [hxs] at hrun
    exact hh e s' hrun

end Triple

/-- A `finally` block that fails replaces what its `try` block came to. -/
theorem run_tryFinally (x : EStateM ε σ α) (f : EStateM ε σ β) (s : σ) :
    (tryFinally x f : EStateM ε σ α).run s =
      match x.run s with
      | .ok a s' =>
        match f.run s' with
        | .ok _ s'' => .ok a s''
        | .error e s'' => .error e s''
      | .error e s' =>
        match f.run s' with
        | .ok _ s'' => .error e s''
        | .error e' s'' => .error e' s'' := by
  simp only [tryFinally, tryFinally', Functor.map, EStateM.map, EStateM.run]
  cases x s with
  | ok a s' =>
    simp only
    cases f s' with
    | ok b s'' => rfl
    | error e s'' => rfl
  | error e s' =>
    simp only
    cases f s' with
    | ok b s'' => rfl
    | error e' s'' => rfl

/-- A `finally` block runs behind a `try` block that has failed as well. -/
theorem Triple.finishing {P : σ → Prop} {Q R : α → σ → Prop} {E F : σ → Prop}
    {x : EStateM ε σ α} {f : EStateM ε σ β} (hx : Triple P x R F)
    (hok : ∀ a, Triple (R a) f (fun _ => Q a) E) (herror : Triple F f (fun _ => E) E) :
    Triple P (tryFinally x f) Q E := by
  intro s hs
  have hrun := hx s hs
  rw [run_tryFinally]
  cases hxs : x.run s with
  | ok a s' =>
    rw [hxs] at hrun
    -- the body returned: the result is kept
    have hlast := hok a s' hrun
    simp only
    cases hfs : f.run s' with
    | ok b s'' =>
      rw [hfs] at hlast
      exact hlast
    | error e s'' =>
      rw [hfs] at hlast
      exact hlast
  | error e s' =>
    rw [hxs] at hrun
    -- it threw: the error is kept
    have hlast := herror s' hrun
    simp only
    cases hfs : f.run s' with
    | ok b s'' =>
      rw [hfs] at hlast
      exact hlast
    | error e' s'' =>
      rw [hfs] at hlast
      exact hlast
